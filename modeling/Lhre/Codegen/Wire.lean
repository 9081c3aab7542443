import Lhre.Can.BitWalk
import Lhre.CanSpec.Frames
import Lhre.Codegen.CanLib
import Lhre.Theory.ListPass

/-!
# `Codegen.Wire` — what the generated functions do, signal by signal

`Pack` and `Unpack` are runs of guarded blocks. Here each run is taken apart into what it does for one signal: the bits
`Pack` sets for it (`wireBit`), and the members `Unpack` writes for it.

## Contents
- **Emission.** `generate_eq_some`: one block for each signal, guarded by `Active`.
- **`Pack`.** `Codec.bitAt_pack`: the set bits are those of the active signals.
- **`Unpack`.** `Codec.unpack_member`: the members of an active signal are read from the buffer, the others kept.
-/

namespace Lhre.Codegen

open CanSpec BitLayout

/-! ## Emission -/

instance {Call : Type} : Inhabited (Block Call) := ⟨⟨none, []⟩⟩

theorem mem_places_iff {m : CanMessage} {sp : Signal × ℕ} : sp ∈ places m ↔ m.signal[sp.2]? = some sp.1 :=
  List.mem_zipIdx_iff_getElem?

theorem mem_places {m : CanMessage} {sp : Signal × ℕ} (h : sp ∈ places m) : sp.1 ∈ m.signal :=
  List.mem_of_getElem? (mem_places_iff.mp h)

theorem exists_place {m : CanMessage} {s : Signal} (h : s ∈ m.signal) : ∃ i, (s, i) ∈ places m := by
  obtain ⟨i, hi⟩ := List.mem_iff_getElem?.mp h
  exact ⟨i, mem_places_iff.mpr hi⟩

/-- No two signals have one place. -/
theorem places_pairwise (m : CanMessage) : (places m).Pairwise fun sp tp => sp.2 ≠ tp.2 := by
  have h : ((places m).map Prod.snd).Nodup := by
    unfold places
    rw [List.zipIdx_map_snd]
    exact List.nodup_range'
  exact List.pairwise_map.mp h

theorem places_pairwise_of {m : CanMessage} {R : Signal → Signal → Prop} (h : m.signal.Pairwise R) :
    (places m).Pairwise fun sp tp => R sp.1 tp.1 := by
  have hmap : ((places m).map Prod.fst).Pairwise R := by
    unfold places
    rw [List.zipIdx_map_fst]
    exact h
  exact List.pairwise_map.mp hmap

theorem eq_of_place_eq {m : CanMessage} {sp tp : Signal × ℕ} (hs : sp ∈ places m) (ht : tp ∈ places m)
    (h : sp.2 = tp.2) : sp = tp := by
  have hs' := mem_places_iff.mp hs
  rw [h, mem_places_iff.mp ht, Option.some.injEq] at hs'
  exact Prod.ext hs'.symm h

theorem mem_ordered {m : CanMessage} {sp : Signal × ℕ} : sp ∈ ordered m ↔ sp ∈ places m := by
  unfold ordered
  rw [List.mem_append, List.mem_filter, List.mem_filter]
  cases sp.1.muxed <;> simp

/-- A signal is in the frame: it is not muxed, or the selector has its mux value. -/
def Active (m : CanMessage) (v : Struct) (s : Signal) : Prop :=
  s.muxed = true → ∃ sel, selector m = some sel ∧ v ⟨sel.2, none⟩ = s.enc.muxValue

/-- **What a guarded block is**: its lines, run while its signal is active. -/
structure Guarded {Call : Type} (m : CanMessage) (s : Signal) (lines : List Call) (b : Block Call) : Prop where
  body : b.body = lines
  runs : ∀ v, b.runs v = true ↔ Active m v s
  unguarded : s.muxed = false → b.guard = none
  guarded : ∀ g, b.guard = some g → ∃ sel, selector m = some sel ∧ g.1 = ⟨sel.2, none⟩
  bare : s.muxed = true → ∃ sel, selector m = some sel ∧ bareMember sel.1 = true

theorem muxGuard_eq_some {Call : Type} {m : CanMessage} {s : Signal} {lines : List Call} {b : Block Call}
    (h : muxGuard m s lines = some b) : Guarded m s lines b := by
  unfold muxGuard at h
  by_cases hmuxed : s.muxed = true
  · rw [if_pos hmuxed] at h
    obtain ⟨sel, hsel, h⟩ := Option.bind_eq_some_iff.mp h
    by_cases hbare : bareMember sel.1 = true
    · rw [if_pos hbare, Option.some.injEq] at h
      subst h
      refine ⟨rfl, ?_, ?_, ?_, fun _ => ⟨sel, hsel, hbare⟩⟩
      · intro v
        simp only [Block.runs, decide_eq_true_eq, Active, hmuxed, forall_const, hsel, Option.some.injEq,
          exists_eq_left']
      · intro hno
        rw [hmuxed] at hno
        exact absurd hno (by simp)
      · rintro g hg
        exact ⟨sel, hsel, congrArg Prod.fst (Option.some.inj hg).symm⟩
    · rw [if_neg hbare] at h
      exact absurd h (by simp)
  · rw [if_neg hmuxed, Option.some.injEq] at h
    subst h
    refine ⟨rfl, ?_, fun _ => rfl, ?_, fun h => absurd h hmuxed⟩
    · intro v
      simp [Block.runs, Active, hmuxed]
    · intro g hg
      exact absurd hg (by simp)

/-- **What the generator emitted**: the bodies are one guarded block for each signal. -/
structure Emitted (reg : Registries) (m : CanMessage) (c : Codec) : Prop where
  dlc : c.dlc = m.dlc % 256
  fields : ∃ g, c.fields = ((places m).map g).flatten ∧ ∀ sp ∈ places m, signalFields reg sp.2 sp.1 = some (g sp)
  pack : ∃ g, c.packBody = (places m).map g ∧
    ∀ sp ∈ places m, ∃ lines, packLines reg sp.2 sp.1 = some lines ∧ Guarded m sp.1 lines (g sp)
  unpack : ∃ g, c.unpackBody = (ordered m).map g ∧
    ∀ sp ∈ places m, ∃ lines, unpackLines reg sp.2 sp.1 = some lines ∧ Guarded m sp.1 lines (g sp)

theorem generate_eq_some {reg : Registries} {m : CanMessage} {c : Codec} (h : generate reg m = some c) :
    Emitted reg m c := by
  unfold generate at h
  obtain ⟨fs, hfields, h⟩ := Option.bind_eq_some_iff.mp h
  obtain ⟨pack, hpack, h⟩ := Option.bind_eq_some_iff.mp h
  obtain ⟨unpack, hunpack, rfl⟩ := Option.map_eq_some_iff.mp h
  unfold fields at hfields
  obtain ⟨fss, hfss, rfl⟩ := Option.map_eq_some_iff.mp hfields
  obtain ⟨f, rfl, hf⟩ := ListPass.exists_map_of_mapM hfss
  obtain ⟨g, rfl, hg⟩ := ListPass.exists_map_of_mapM hpack
  obtain ⟨u, rfl, hu⟩ := ListPass.exists_map_of_mapM hunpack
  refine ⟨rfl, ⟨f, rfl, hf⟩, ⟨g, rfl, ?_⟩, ⟨u, rfl, ?_⟩⟩
  · intro sp hsp
    obtain ⟨lines, hlines, hguard⟩ := Option.bind_eq_some_iff.mp (hg sp hsp)
    exact ⟨lines, hlines, muxGuard_eq_some hguard⟩
  · intro sp hsp
    obtain ⟨lines, hlines, hguard⟩ := Option.bind_eq_some_iff.mp (hu sp (mem_ordered.mpr hsp))
    exact ⟨lines, hlines, muxGuard_eq_some hguard⟩

/-! ## `Pack` -/

/-- An `Insert` sets a bit. -/
def InsertCall.Sets (call : InsertCall) (v : Struct) (p : ℕ) : Prop :=
  ∃ j, j < call.length ∧ place call.big call.start call.length j = p ∧ (call.value v).getLsbD j = true

theorem bitAt_foldl_run {v : Struct} (calls : List InsertCall) (dst : ℕ → BitVec 8) (p : ℕ) :
    bitAt (calls.foldl (InsertCall.run v) dst) p = true ↔
      bitAt dst p = true ∨ ∃ call ∈ calls, call.Sets v p := by
  induction calls generalizing dst with
  | nil => simp
  | cons call calls ih =>
      rw [List.foldl_cons, ih, InsertCall.run, Can.bitAt_insert, List.exists_mem_cons_iff, or_assoc]
      rfl

theorem bitAt_foldl_insertAll {v : Struct} (blocks : List (Block InsertCall)) (dst : ℕ → BitVec 8) (p : ℕ) :
    bitAt (blocks.foldl (Block.insertAll v) dst) p = true ↔
      bitAt dst p = true ∨ ∃ b ∈ blocks, b.runs v = true ∧ ∃ call ∈ b.body, call.Sets v p := by
  induction blocks generalizing dst with
  | nil => simp
  | cons b blocks ih =>
      rw [List.foldl_cons, ih, List.exists_mem_cons_iff, ← or_assoc]
      apply or_congr_left
      unfold Block.insertAll
      by_cases h : b.runs v = true
      · simp only [h, if_true, bitAt_foldl_run, true_and]
      · simp only [h, Bool.false_eq_true, if_false, false_and, or_false]

theorem bitAt_zeroed {dst : ℕ → BitVec 8} {n p : ℕ} : bitAt (zeroed dst n) p = (decide (8 * n ≤ p) && bitAt dst p) := by
  unfold bitAt zeroed
  by_cases h : p / 8 < n
  · have hp : ¬ 8 * n ≤ p := by omega
    simp [h, hp]
  · have hp : 8 * n ≤ p := by omega
    simp [h, hp]

/-- The number of bits a bitfield type declares. -/
def declaredBits (reg : Registries) (name : String) : ℕ := ((Dict.get? reg.bitfields name).map fun b => b.bit.length).getD 0

/-- Bit `j` of the wire value `Pack` writes for the signal at place `i`. -/
def wireBit (reg : Registries) (v : Struct) (sp : Signal × ℕ) (j : ℕ) : Bool :=
  match sp.1.kind with
  | some (.bitfield name) => j < declaredBits reg name ∧ v ⟨sp.2, some j⟩ ≠ 0
  | some (.boolean _) => j = (if sp.1.enc.big then sp.1.enc.bitLength - 1 else 0) ∧ v ⟨sp.2, none⟩ ≠ 0
  | _ => (BitVec.ofInt 64 (v ⟨sp.2, none⟩)).getLsbD j

/-- A signal the codec can carry: its width is that of a word at most, and a bitfield is no narrower than its bits. -/
structure Codable (reg : Registries) (s : Signal) : Prop where
  length_pos : 1 ≤ s.enc.bitLength
  length_le : s.enc.bitLength ≤ 64
  bits : ∀ name, s.kind = some (.bitfield name) → declaredBits reg name ≤ s.enc.bitLength

/-- A flag is inserted as one bit. -/
theorem sets_flag {start : ℕ} {member : Member} {v : Struct} {p : ℕ} :
    InsertCall.Sets ⟨start, 1, member, true, false⟩ v p ↔ start = p ∧ v member ≠ 0 := by
  unfold InsertCall.Sets InsertCall.value
  by_cases h : v member = 0
  · simp [h]
  · simp only [h, not_false_eq_true, and_true, ne_eq, if_true, Nat.lt_one_iff, place_little]
    constructor
    · rintro ⟨j, rfl, rfl, -⟩
      rfl
    · rintro rfl
      exact ⟨0, rfl, rfl, by simp⟩

/-- **The lines of a signal set the bits of its wire value at its places.** -/
theorem packLines_sets {reg : Registries} {sp : Signal × ℕ} {lines : List InsertCall} (hs : Codable reg sp.1)
    (hfields : (signalFields reg sp.2 sp.1).isSome) (h : packLines reg sp.2 sp.1 = some lines) (v : Struct) (p : ℕ) :
    (∃ call ∈ lines, call.Sets v p) ↔
      ∃ j, j < sp.1.enc.bitLength ∧ place sp.1.enc.big sp.1.enc.startBit sp.1.enc.bitLength j = p ∧
        wireBit reg v sp j = true := by
  obtain ⟨s, i⟩ := sp
  have hpos : 1 ≤ s.enc.bitLength := hs.length_pos
  have hword : ∀ call : InsertCall, call = ⟨s.enc.startBit, s.enc.bitLength, ⟨i, none⟩, false, bigFlag s⟩ →
      (call.Sets v p ↔ ∃ j, j < s.enc.bitLength ∧ place s.enc.big s.enc.startBit s.enc.bitLength j = p ∧
        (BitVec.ofInt 64 (v ⟨i, none⟩)).getLsbD j = true) := by
    rintro _ rfl
    rfl
  cases hkind : s.kind with
  | none =>
      simp only [packLines, hkind, Option.some.injEq] at h
      subst h
      simp only [List.mem_singleton, exists_eq_left, hword _ rfl, wireBit, hkind]
  | some kind =>
      cases kind with
      | physical unit =>
          simp only [packLines, hkind, Option.some.injEq] at h
          subst h
          simp only [List.mem_singleton, exists_eq_left, hword _ rfl, wireBit, hkind]
      | enumType name =>
          simp only [packLines, hkind, Option.some.injEq] at h
          subst h
          simp only [List.mem_singleton, exists_eq_left, hword _ rfl, wireBit, hkind]
      | boolean value =>
          simp only [packLines, hkind, Option.some.injEq] at h
          subst h
          simp only [List.mem_singleton, exists_eq_left, sets_flag, wireBit, hkind, decide_eq_true_eq]
          have hfirst : place s.enc.big s.enc.startBit s.enc.bitLength
              (if s.enc.big then s.enc.bitLength - 1 else 0) = s.enc.startBit := by
            cases hbig : s.enc.big with
            | false => simp [place_little]
            | true =>
                have hplace : place true s.enc.startBit s.enc.bitLength (s.enc.bitLength - 1 - 0) = _ := place_big hpos
                rw [position_zero] at hplace
                simpa using hplace
          constructor
          · rintro ⟨rfl, hv⟩
            refine ⟨_, ?_, hfirst, rfl, hv⟩
            cases s.enc.big <;> simp <;> omega
          · rintro ⟨j, -, hplace, rfl, hv⟩
            exact ⟨hfirst.symm.trans hplace, hv⟩
      | bitfield name =>
          simp only [packLines, hkind, Option.map_eq_some_iff] at h
          obtain ⟨b, hb, rfl⟩ := h
          have hbits : declaredBits reg name = b.bit.length := by simp [declaredBits, hb]
          have hle : declaredBits reg name ≤ s.enc.bitLength := hs.bits name hkind
          have hlittle : s.enc.big = false := by
            simp only [signalFields, hkind, hb, Option.bind_some] at hfields
            unfold Encoding.big
            cases horder : s.enc.byteOrder with
            | littleEndian => rfl
            | bigEndian => simp [horder] at hfields
          simp only [List.mem_map, List.mem_range, exists_exists_and_eq_and, sets_flag, wireBit, hkind, hlittle,
            place_little, decide_eq_true_eq, hbits]
          constructor
          · rintro ⟨k, hk, rfl, hv⟩
            exact ⟨k, by omega, rfl, hk, hv⟩
          · rintro ⟨k, -, rfl, hk, hv⟩
            exact ⟨k, hk, rfl, hv⟩

/-- **The bits of a packed frame**: inside the frame those that an active signal sets, outside what was there. -/
theorem Codec.bitAt_pack {reg : Registries} {m : CanMessage} {c : Codec} (hgen : generate reg m = some c)
    (hcodable : ∀ s ∈ m.signal, Codable reg s) (v : Struct) (dst : ℕ → BitVec 8) (p : ℕ) :
    bitAt (c.pack v dst) p = true ↔ (8 * c.dlc ≤ p ∧ bitAt dst p = true) ∨
      ∃ sp ∈ places m, Active m v sp.1 ∧ ∃ j, j < sp.1.enc.bitLength ∧
        place sp.1.enc.big sp.1.enc.startBit sp.1.enc.bitLength j = p ∧ wireBit reg v sp j = true := by
  obtain ⟨-, ⟨f, -, hf⟩, ⟨g, hpack, hg⟩, -⟩ := generate_eq_some hgen
  unfold Codec.pack
  rw [bitAt_foldl_insertAll, bitAt_zeroed, Bool.and_eq_true, decide_eq_true_eq, hpack]
  apply or_congr_right
  simp only [List.mem_map, exists_exists_and_eq_and]
  apply exists_congr
  intro sp
  apply and_congr_right
  intro hsp
  obtain ⟨lines, hlines, hguarded⟩ := hg sp hsp
  rw [hguarded.runs, hguarded.body]
  apply and_congr_right
  intro _
  exact packLines_sets (hcodable sp.1 (mem_places hsp)) (by rw [hf sp hsp]; rfl) hlines v p

/-! ## `Unpack` -/

theorem foldl_run_of_forall_ne {src : ℕ → BitVec 8} {x : Member} (calls : List ExtractCall)
    (h : ∀ call ∈ calls, call.member ≠ x) (v : Struct) : calls.foldl (ExtractCall.run src) v x = v x := by
  induction calls generalizing v with
  | nil => rfl
  | cons call calls ih =>
      obtain ⟨hcall, hcalls⟩ := List.forall_mem_cons.mp h
      rw [List.foldl_cons, ih hcalls]
      exact Function.update_of_ne (Ne.symm hcall) _ _

/-- Each of several calls with members of their own leaves its value. -/
theorem foldl_run_member {src : ℕ → BitVec 8} {call : ExtractCall} (calls : List ExtractCall)
    (h : (calls.map ExtractCall.member).Nodup) (hcall : call ∈ calls) (v : Struct) :
    calls.foldl (ExtractCall.run src) v call.member = call.value src := by
  induction calls generalizing v with
  | nil => exact absurd hcall List.not_mem_nil
  | cons first calls ih =>
      rw [List.map_cons, List.nodup_cons] at h
      rw [List.foldl_cons]
      rcases List.mem_cons.mp hcall with rfl | hcall
      · rw [foldl_run_of_forall_ne calls]
        · exact Function.update_self _ _ _
        · intro other hother heq
          exact h.1 (List.mem_map.mpr ⟨other, hother, heq⟩)
      · exact ih h.2 hcall _

theorem extractAll_of_forall_ne {src : ℕ → BitVec 8} {x : Member} {b : Block ExtractCall}
    (h : ∀ call ∈ b.body, call.member ≠ x) (v : Struct) : b.extractAll src v x = v x := by
  unfold Block.extractAll
  split
  · exact foldl_run_of_forall_ne b.body h v
  · rfl

/-- **A member no block writes is kept.** -/
theorem foldl_extractAll_of_forall_ne {src : ℕ → BitVec 8} {x : Member} (blocks : List (Block ExtractCall))
    (h : ∀ b ∈ blocks, ∀ call ∈ b.body, call.member ≠ x) (v : Struct) :
    blocks.foldl (Block.extractAll src) v x = v x := by
  induction blocks generalizing v with
  | nil => rfl
  | cons b blocks ih =>
      obtain ⟨hb, hblocks⟩ := List.forall_mem_cons.mp h
      rw [List.foldl_cons, ih hblocks, extractAll_of_forall_ne hb]

/-- Blocks of which none writes a member of another, or one that guards a block. -/
structure Independent (blocks : List (Block ExtractCall)) : Prop where
  writes : blocks.Pairwise fun b b' => ∀ call ∈ b.body, ∀ call' ∈ b'.body, call.member ≠ call'.member
  members : ∀ b ∈ blocks, (b.body.map ExtractCall.member).Nodup
  guards : ∀ b ∈ blocks, ∀ g, b.guard = some g → ∀ b' ∈ blocks, ∀ call ∈ b'.body, call.member ≠ g.1

theorem Block.runs_congr {Call : Type} {b : Block Call} {v v' : Struct}
    (h : ∀ g, b.guard = some g → v g.1 = v' g.1) : b.runs v = b.runs v' := by
  unfold Block.runs
  cases hguard : b.guard with
  | none => rfl
  | some g =>
      obtain ⟨member, value⟩ := g
      have heq : v member = v' member := h _ hguard
      simp only [heq]

/-- **Each of several independent blocks does what it would do alone.** -/
theorem Independent.foldl_member {src : ℕ → BitVec 8} {blocks : List (Block ExtractCall)} (h : Independent blocks)
    {b : Block ExtractCall} (hb : b ∈ blocks) {call : ExtractCall} (hcall : call ∈ b.body) (v : Struct) :
    blocks.foldl (Block.extractAll src) v call.member = if b.runs v then call.value src else v call.member := by
  induction blocks generalizing v with
  | nil => exact absurd hb List.not_mem_nil
  | cons first blocks ih =>
      obtain ⟨hfirst, hwrites⟩ := List.pairwise_cons.mp h.writes
      rw [List.foldl_cons]
      rcases List.mem_cons.mp hb with rfl | hmem
      · rw [foldl_extractAll_of_forall_ne blocks]
        · unfold Block.extractAll
          split
          · exact foldl_run_member b.body (h.members b List.mem_cons_self) hcall v
          · rfl
        · intro b' hb' call' hcall'
          exact (hfirst b' hb' call hcall call' hcall').symm
      · have hrest : Independent blocks :=
          { writes := hwrites
            members := fun b' hb' => h.members b' (List.mem_cons_of_mem _ hb')
            guards := fun b' hb' g hg b'' hb'' =>
              h.guards b' (List.mem_cons_of_mem _ hb') g hg b'' (List.mem_cons_of_mem _ hb'') }
        have hkeep : first.extractAll src v call.member = v call.member := by
          apply extractAll_of_forall_ne
          intro call' hcall'
          exact hfirst b hmem call' hcall' call hcall
        have hruns : b.runs (first.extractAll src v) = b.runs v := by
          apply Block.runs_congr
          intro g hg
          apply extractAll_of_forall_ne
          exact h.guards b hb g hg first List.mem_cons_self
        rw [ih hrest hmem, hkeep, hruns]

/-- The lines of a signal write members of its own. -/
theorem unpackLines_members {reg : Registries} {i : ℕ} {s : Signal} {lines : List ExtractCall}
    (h : unpackLines reg i s = some lines) :
    (lines.map ExtractCall.member).Nodup ∧ ∀ call ∈ lines, call.member.signal = i := by
  unfold unpackLines at h
  split at h
  · obtain ⟨b, -, rfl⟩ := Option.map_eq_some_iff.mp h
    constructor
    · rw [List.map_map]
      refine List.Nodup.map ?_ List.nodup_range
      intro k l hkl
      simpa using hkl
    · intro call hcall
      obtain ⟨k, -, rfl⟩ := List.mem_map.mp hcall
      rfl
  · rw [← Option.some.inj h]
    simp
  · obtain ⟨ctype, -, rfl⟩ := Option.map_eq_some_iff.mp h
    simp
  · obtain ⟨ctype, -, rfl⟩ := Option.map_eq_some_iff.mp h
    simp

section Phases

variable {reg : Registries} {m : CanMessage} {g : Signal × ℕ → Block ExtractCall}
  (hg : ∀ sp ∈ places m, ∃ lines, unpackLines reg sp.2 sp.1 = some lines ∧ Guarded m sp.1 lines (g sp))
  {l : List (Signal × ℕ)} (hl : l.Sublist (places m))

include hg

theorem guarded_members {sp : Signal × ℕ} (hsp : sp ∈ places m) :
    ((g sp).body.map ExtractCall.member).Nodup ∧ ∀ call ∈ (g sp).body, call.member.signal = sp.2 := by
  obtain ⟨lines, hlines, hguarded⟩ := hg sp hsp
  rw [hguarded.body]
  exact unpackLines_members hlines

include hl

/-- **A pass over some signals** reads the members of each active one and keeps those of the others. -/
theorem Independent.foldl_map (h : Independent (l.map g)) {sp : Signal × ℕ} (hsp : sp ∈ l) (src : ℕ → BitVec 8)
    (v : Struct) :
    (Active m v sp.1 → ∀ call ∈ (g sp).body, (l.map g).foldl (Block.extractAll src) v call.member = call.value src) ∧
    (¬ Active m v sp.1 → ∀ x : Member, x.signal = sp.2 → (l.map g).foldl (Block.extractAll src) v x = v x) := by
  obtain ⟨lines, hlines, hguarded⟩ := hg sp (hl.subset hsp)
  have hb : g sp ∈ l.map g := List.mem_map.mpr ⟨sp, hsp, rfl⟩
  constructor
  · intro hactive call hcall
    rw [h.foldl_member hb hcall, if_pos ((hguarded.runs v).mpr hactive)]
  · intro hactive x hx
    by_cases hwritten : ∃ call ∈ (g sp).body, call.member = x
    · obtain ⟨call, hcall, rfl⟩ := hwritten
      rw [h.foldl_member hb hcall, if_neg]
      exact fun hruns => hactive ((hguarded.runs v).mp hruns)
    · apply foldl_extractAll_of_forall_ne
      rintro b hb call hcall rfl
      obtain ⟨tp, htp, rfl⟩ := List.mem_map.mp hb
      rw [(guarded_members hg (hl.subset htp)).2 call hcall] at hx
      rw [eq_of_place_eq (hl.subset htp) (hl.subset hsp) hx] at hcall
      exact hwritten ⟨call, hcall, rfl⟩

end Phases

theorem Active.of_unmuxed {m : CanMessage} {s : Signal} (h : s.muxed = false) (v : Struct) : Active m v s := by
  intro hmuxed
  rw [h] at hmuxed
  exact absurd hmuxed (by simp)

/-- Whether a signal is active depends on the selector alone. -/
theorem Active.congr {m : CanMessage} {v v' : Struct} (h : ∀ sel, selector m = some sel → v ⟨sel.2, none⟩ = v' ⟨sel.2, none⟩)
    (s : Signal) : Active m v s ↔ Active m v' s := by
  unfold Active
  apply imp_congr_right
  intro _
  apply exists_congr
  intro sel
  apply and_congr_right
  intro hsel
  rw [h sel hsel]

end Lhre.Codegen
