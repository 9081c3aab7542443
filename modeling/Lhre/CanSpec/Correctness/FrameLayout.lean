import Lhre.CanSpec.Frames

/-!
# `CanSpec.Correctness.FrameLayout` — what acceptance says about the bits of a frame

The validator is to reject a message in which two signals that can be active in one frame share a bit, or a signal that
leaves the frame. It does so whenever one of the two signals is not muxed. Of the muxed signals it remembers, bit by
bit, only the one listed last, so that two signals of one mux page pass unnoticed when a signal of another page that
takes their common bit is listed between them.

## Contents
- **The property.** `SimultaneouslyActive`, `FrameSound`, `LayoutSound`.
- **The exception.** `PagesInterleave`.
- **`frame_layout`**: an accepted spec is sound exactly when no pages interleave.
-/

namespace Lhre.CanSpec

/-! ## The property -/

/-- Two signals that can be active in the same frame: one of them is not muxed, or they are on one mux page. -/
def SimultaneouslyActive (s t : Signal) : Prop :=
  s.muxed = false ∨ t.muxed = false ∨ s.enc.muxValue = t.enc.muxValue

theorem simultaneouslyActive_iff {s t : Signal} : SimultaneouslyActive s t ↔ Overlap.Conflict muxKey s t := by
  unfold SimultaneouslyActive Overlap.Conflict muxKey
  cases s.muxed <;> cases t.muxed <;> simp

/-- The signals of a message lie in its frame, and those that can be active together share no bit. -/
structure FrameSound (m : CanMessage) : Prop where
  disjoint : m.signal.Pairwise fun s t =>
    SimultaneouslyActive s t → (occupiedBits s.enc).Disjoint (occupiedBits t.enc)
  inFrame : ∀ s ∈ m.signal, ∀ bit ∈ occupiedBits s.enc, bit < 8 * m.dlc

/-- Every message is sound, and is accepted with its signals listed in any order. -/
def LayoutSound (spec : Spec) : Prop :=
  ∀ fm ∈ spec.messages, FrameSound fm.2 ∧
    ∀ signals, fm.2.signal.Perm signals →
      checkFrames spec.registries [] [(fm.1, { fm.2 with signal := signals })] = []

/-! ## The exception -/

/-- Two signals of one mux page share a bit with a signal of another page listed between them. -/
def PagesInterleave (m : CanMessage) : Prop :=
  ∃ s u t, [s, u, t].Sublist m.signal ∧ s.muxed = true ∧ u.muxed = true ∧ t.muxed = true ∧
    s.enc.muxValue = t.enc.muxValue ∧ u.enc.muxValue ≠ s.enc.muxValue ∧
    ∃ bit, bit ∈ occupiedBits s.enc ∧ bit ∈ occupiedBits u.enc ∧ bit ∈ occupiedBits t.enc

/-- Only muxed signals can interleave in an accepted message. -/
theorem MessageOk.interleaved_iff {reg : Registries} {m : CanMessage} (h : MessageOk reg m) :
    Overlap.Interleaved bitsOf muxKey m.signal ↔ PagesInterleave m := by
  constructor
  · rintro ⟨s, u, t, hsub, hkey, hother, bit, hs, hu, ht⟩
    have hsu : [s, u].Sublist m.signal := by
      refine List.Sublist.trans ?_ hsub
      exact List.Sublist.cons_cons s (List.Sublist.cons_cons u (List.nil_sublist [t]))
    have hut : [u, t].Sublist m.signal := (List.sublist_cons_self s [u, t]).trans hsub
    have hplain : ∀ {a b : Signal}, [a, b].Sublist m.signal → a.muxed = false ∨ b.muxed = false →
        (occupiedBits a.enc).Disjoint (occupiedBits b.enc) :=
      fun hab => List.pairwise_iff_forall_sublist.mp h.disjoint_of_unmuxed hab
    have hsmux : s.muxed = true := by
      by_contra hno
      exact hplain hsu (Or.inl (Bool.not_eq_true _ ▸ hno)) hs hu
    have humux : u.muxed = true := by
      by_contra hno
      exact hplain hsu (Or.inr (Bool.not_eq_true _ ▸ hno)) hs hu
    have htmux : t.muxed = true := by
      by_contra hno
      exact hplain hut (Or.inr (Bool.not_eq_true _ ▸ hno)) hu ht
    unfold muxKey at hkey hother
    rw [if_pos hsmux, if_pos htmux] at hkey
    rw [if_pos humux, if_pos hsmux] at hother
    refine ⟨s, u, t, hsub, hsmux, humux, htmux, Option.some.inj hkey, ?_, bit, hs, hu, ht⟩
    intro heq
    exact hother (congrArg some heq)
  · rintro ⟨s, u, t, hsub, hsmux, humux, htmux, hkey, hother, hbit⟩
    refine ⟨s, u, t, hsub, ?_, ?_, hbit⟩
    · unfold muxKey
      rw [if_pos hsmux, if_pos htmux, hkey]
    · unfold muxKey
      rw [if_pos humux, if_pos hsmux]
      intro heq
      exact hother (Option.some.inj heq)

/-! ## What acceptance guarantees -/

/-- The signals of an accepted message that can be active together are disjoint exactly when no pages interleave. -/
theorem MessageOk.disjoint_iff {reg : Registries} {m : CanMessage} (h : MessageOk reg m) :
    (m.signal.Pairwise fun s t => SimultaneouslyActive s t → (occupiedBits s.enc).Disjoint (occupiedBits t.enc)) ↔
      ¬ PagesInterleave m := by
  rw [← h.interleaved_iff, ← Overlap.pairwise_iff_not_interleaved h.accepted]
  simp only [simultaneouslyActive_iff]

/-- Disjointness does not depend on the order of the signals. -/
theorem pairwise_perm {l l' : List Signal} (hperm : l.Perm l')
    (h : l.Pairwise fun s t => SimultaneouslyActive s t → (occupiedBits s.enc).Disjoint (occupiedBits t.enc)) :
    l'.Pairwise fun s t => SimultaneouslyActive s t → (occupiedBits s.enc).Disjoint (occupiedBits t.enc) := by
  refine (List.Perm.pairwise_iff ?_ hperm).mp h
  intro s t hst hactive
  apply List.Disjoint.symm
  apply hst
  rw [simultaneouslyActive_iff] at hactive ⊢
  exact Overlap.Conflict.symm muxKey hactive

/-- **A sound message is accepted in any order of its signals.** -/
theorem MessageOk.reorder {reg : Registries} {m : CanMessage} (h : MessageOk reg m)
    (hdisjoint : m.signal.Pairwise fun s t =>
      SimultaneouslyActive s t → (occupiedBits s.enc).Disjoint (occupiedBits t.enc))
    {signals : List Signal} (hperm : m.signal.Perm signals) : MessageOk reg { m with signal := signals } where
  bus := h.bus
  ids := h.ids
  one_selector := by
    have hsel : ((selectors m).Perm (selectors { m with signal := signals })) := hperm.filter _
    rw [← hsel.length_eq]
    exact h.one_selector
  selector_of_muxed := by
    intro s hs hmuxed hnil
    have hsel : ((selectors m).Perm (selectors { m with signal := signals })) := hperm.filter _
    rw [hnil] at hsel
    exact h.selector_of_muxed s (hperm.mem_iff.mpr hs) hmuxed hsel.eq_nil
  muxed_of_selector := by
    intro hne
    have hsel : ((selectors m).Perm (selectors { m with signal := signals })) := hperm.filter _
    obtain ⟨s, hs, hmuxed⟩ := h.muxed_of_selector (by
      intro hnil
      rw [hnil] at hsel
      exact hne hsel.symm.eq_nil)
    exact ⟨s, hperm.mem_iff.mp hs, hmuxed⟩
  signals := by
    intro s hs
    exact h.signals s (hperm.mem_iff.mpr hs)
  names := (hperm.map Signal.name).nodup_iff.mp h.names
  accepted := by
    apply Overlap.acceptedFrom_of_pairwise
    have hpair := pairwise_perm hperm hdisjoint
    simp only [simultaneouslyActive_iff] at hpair
    exact hpair

/-- **The layout of an accepted spec.** No two signals that can be active in one frame share a bit, no signal leaves its
    frame, and no order of the signals is refused, exactly when no message has two signals of one mux page sharing a bit
    with a signal of another page listed between them. -/
theorem frame_layout {spec : Spec} (h : spec.Valid) :
    LayoutSound spec ↔ ∀ fm ∈ spec.messages, ¬ PagesInterleave fm.2 := by
  constructor
  · intro hsound fm hfm
    exact (h.message hfm).disjoint_iff.mp (hsound fm hfm).1.disjoint
  · intro hno fm hfm
    have hok := h.message hfm
    have hdisjoint := hok.disjoint_iff.mpr (hno fm hfm)
    refine ⟨⟨hdisjoint, ?_⟩, ?_⟩
    · intro s hs bit hbit
      rw [Nat.mul_comm]
      exact (hok.signals s hs).inFrame bit hbit
    · intro signals hperm
      rw [checkFrames_eq_nil]
      refine ⟨?_, ?_, List.pairwise_singleton _ _⟩
      · intro fm' hfm'
        rw [List.mem_singleton.mp hfm']
        exact hok.reorder hdisjoint hperm
      · intro fm' hfm' id hid
        exact List.not_mem_nil

/-! ## A debug message with three pages' worth of signals -/

/-- An unscaled signal of one byte. -/
def byteSignal (name : String) (startByte : ℕ) : Signal where
  name := name
  encoding := some { startBit := 8 * startByte, bitLength := 8 }
  logical := some { kind := some (.physical "") }

/-- A signal of one byte on a mux page. -/
def pageSignal (name : String) (startByte page : ℕ) : Signal :=
  { byteSignal name startByte with
    encoding := some { startBit := 8 * startByte, bitLength := 8, muxed := true, muxValue := page } }

/-- The selector of the mux page. -/
def channelSignal : Signal :=
  { byteSignal "channel" 0 with logical := some { kind := some (.physical ""), muxSelector := true } }

/-- A spec of one bus and one message with the given signals. -/
def debugSpec (signals : List Signal) : Spec where
  files :=
    [("lib/spec/buses.textproto", { bus := [{ name := "Critical", bitrateBps := 1000000 }] }),
      ("lib/spec/messages/vcu.textproto",
        { message :=
            [{ name := "VCU_DEBUG", canId := 0x200, fromBoard := "VCU", bus := "Critical", dlc := 8,
               signal := signals }] })]
  nodup := by simp

/-- Two signals of page 0 on one byte, with a signal of page 1 on that byte between them. -/
def interleavedSignals : List Signal :=
  [channelSignal, pageSignal "first" 1 0, pageSignal "other" 1 1, pageSignal "second" 1 0]

/-- **An accepted spec with an overlap.** -/
theorem frame_layout_debug : (debugSpec interleavedSignals).Valid ∧ ¬ LayoutSound (debugSpec interleavedSignals) := by
  refine ⟨by decide, ?_⟩
  intro hsound
  have hframe := (hsound _ List.mem_cons_self).1
  have hsub : [pageSignal "first" 1 0, pageSignal "second" 1 0].Sublist interleavedSignals := by decide
  have hactive : SimultaneouslyActive (pageSignal "first" 1 0) (pageSignal "second" 1 0) := by
    right
    right
    rfl
  have hfirst : 8 ∈ occupiedBits (pageSignal "first" 1 0).enc := by decide
  exact List.pairwise_iff_forall_sublist.mp hframe.disjoint hsub hactive hfirst (by decide)

/-- The same signals with the two pages listed one after the other are rejected. -/
example : ¬ (debugSpec [channelSignal, pageSignal "first" 1 0, pageSignal "second" 1 0, pageSignal "other" 1 1]).Valid := by
  decide

/-- The layout theorem on a message with two pages. -/
theorem frame_layout_pages :
    LayoutSound (debugSpec [channelSignal, pageSignal "first" 1 0, pageSignal "other" 1 1]) := by
  refine (frame_layout (by decide)).mpr ?_
  intro fm hfm
  rw [List.mem_singleton.mp hfm]
  rintro ⟨s, u, t, hsub, hs, -⟩
  -- the only three signals listed one after the other start with the selector, which is not muxed
  have hall := hsub.eq_of_length rfl
  rw [(List.cons.inj hall).1] at hs
  exact absurd hs (by decide)

end Lhre.CanSpec
