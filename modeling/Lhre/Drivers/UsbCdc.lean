import Lhre.Theory.Ring
import Lhre.Drivers.System

/-!
# `Drivers.UsbCdc` — receiving on the USB serial port

The receive side of `lhal::stm32::UsbCdc` (`drivers/lhal/stm32/usb_cdc.cpp`). A packet comes in an interrupt, which runs
between any two steps of the thread; `Read` goes one load or store of a shared variable at a time, and the body of
`ReadAsync` is one step, since it runs with interrupts off. The callback of a read that an interrupt completes may ask for
another read, so a packet comes with the lengths its callbacks ask for.

`rx_head_` and `rx_tail_` count without bound and show 32 bits of it. What readers have, with what the ring still holds, is
what was taken from packets, in order. Two things would break that and are left out by `UsbEvent.Orderly`: a new start of
the port while `Read` is past its comparison, which leaves the tail ahead of the head, and a callback that asks for another
read while bytes of the packet are left, which then come after those of the next packet.

## Contents
- **The port.** `Pc`, `UsbCdc`, `UsbCdc.held`, `UsbCdc.buffered`.
- **The interrupt.** `push`, `drain`, `enter`, `fire`, `handleReceive`, `handleInit`.
- **The thread and runs.** `tick`, `UsbEvent`, `UsbCdc.step`, `UsbCdc.run`.
- **The counters.** `UsbCdc.At` and what it says of the ring.
- **One operation.** `At.push`, `At.drain`, `At.fire`, `At.enter`, `At.receive`, `At.tick`.
- **Orderly runs.** `UsbEvent.Orderly`, `At.step`, `At.run`; `bytes_in_order`.
-/

namespace Lhre.Lhal.Stm32

/-! ## The port -/

/-- `UsbCdc::kRxBufferSize`. -/
def kRxBufferSize : ℕ := 1024

instance : NeZero kRxBufferSize := ⟨by decide⟩

/-- Where the thread is in `Read`, with the bytes it still wants, or in `ReadAsync`. -/
inductive Pc where
  | idle
  | wait (left : ℕ)
  /-- `rx_tail_` is loaded for the comparison. -/
  | compare (left : ℕ) (tail : U32)
  | take (left : ℕ)
  /-- The byte is stored. -/
  | load (left : ℕ)
  /-- `rx_tail_` is loaded for the increment. -/
  | store (left : ℕ) (tail : U32)
  /-- `ReadAsync` saw no pending read. -/
  | enter (len : ℕ)
deriving DecidableEq, Repr

/-- The byte at the tail is stored, and the tail not moved. -/
def Pc.ahead : Pc → ℕ
  | .load _ | .store _ _ => 1
  | _ => 0

/-- The receive side of `UsbCdc`, with the bytes taken from packets and those stored in the buffers of readers. -/
structure UsbCdc where
  rxRing : Fin kRxBufferSize → U8 := fun _ => 0
  rxHead : U32 := 0
  rxTail : U32 := 0
  /-- 0 for no pending read -/
  rxAsyncLen : ℕ := 0
  rxAsyncPos : ℕ := 0
  pc : Pc := .idle
  accepted : List U8 := []
  delivered : List U8 := []

/-- The places of the ring in use. -/
def UsbCdc.held (s : UsbCdc) : ℕ := (s.rxHead - s.rxTail).toNat

/-- The bytes of the ring that no reader has, in order. -/
def UsbCdc.buffered (s : UsbCdc) : List U8 :=
  Ring.contents s.rxRing (s.rxTail.toNat + s.pc.ahead) (s.held - s.pc.ahead)

/-! ## The interrupt -/

/-- The loop at the end of `HandleReceive`: the newest bytes are dropped when the ring is full. -/
def UsbCdc.push : List U8 → UsbCdc → UsbCdc
  | [], s => s
  | b :: bs, s =>
      if kRxBufferSize ≤ (s.rxHead - s.rxTail).toNat then s
      else
        UsbCdc.push bs
          { s with
            rxRing := Function.update s.rxRing (Ring.slot kRxBufferSize s.rxHead.toNat) b
            rxHead := s.rxHead + 1
            accepted := s.accepted ++ [b] }

/-- The loop of `ReadAsync` over the bytes already buffered, and how many bytes are still wanted. -/
def UsbCdc.drain : ℕ → UsbCdc → UsbCdc × ℕ
  | 0, s => (s, 0)
  | left + 1, s =>
      if s.rxTail = s.rxHead then (s, left + 1)
      else
        UsbCdc.drain left
          { s with
            delivered := s.delivered ++ [s.rxRing (Ring.slot kRxBufferSize s.rxTail.toNat)]
            rxTail := s.rxTail + 1 }

/-- The body of `ReadAsync`; the flag is whether the read is complete. -/
def UsbCdc.enter (s : UsbCdc) (len : ℕ) : UsbCdc × Bool :=
  let (s, left) := s.drain len
  if left = 0 then (s, true) else ({ s with rxAsyncPos := len - left, rxAsyncLen := len }, false)

/-- A callback, which asks for a read of the first length; one that completes at once calls the next. -/
def UsbCdc.fire : List ℕ → UsbCdc → UsbCdc
  | [], s => s
  | len :: lens, s =>
      if s.rxAsyncLen ≠ 0 then s
      else
        let (s, complete) := s.enter len
        if complete then UsbCdc.fire lens s else s

/-- `HandleReceive`. -/
def UsbCdc.handleReceive (s : UsbCdc) (data : List U8) (lens : List ℕ) : UsbCdc :=
  if s.rxAsyncLen = 0 then s.push data
  else
    let i := min data.length (s.rxAsyncLen - s.rxAsyncPos)
    let s :=
      { s with
        accepted := s.accepted ++ data.take i, delivered := s.delivered ++ data.take i, rxAsyncPos := s.rxAsyncPos + i }
    let s := if s.rxAsyncPos = s.rxAsyncLen then UsbCdc.fire lens { s with rxAsyncLen := 0 } else s
    s.push (data.drop i)

/-- `HandleInit`: what is in the ring is forgotten. -/
def UsbCdc.handleInit (s : UsbCdc) : UsbCdc := { s with rxHead := 0, rxTail := 0, accepted := s.delivered }

/-! ## The thread -/

/-- One load or store of `Read`, or the body of `ReadAsync`; the flag is whether the timeout has passed. -/
def UsbCdc.tick (s : UsbCdc) (timedOut : Bool) : UsbCdc :=
  match s.pc with
  | .idle => s
  | .wait left => { s with pc := .compare left s.rxTail }
  | .compare left tail =>
      if tail = s.rxHead then { s with pc := if timedOut then .idle else .wait left } else { s with pc := .take left }
  | .take left =>
      { s with
        delivered := s.delivered ++ [s.rxRing (Ring.slot kRxBufferSize s.rxTail.toNat)]
        pc := .load (left - 1) }
  | .load left => { s with pc := .store left s.rxTail }
  | .store left tail => { s with rxTail := tail + 1, pc := if left = 0 then .idle else .wait left }
  | .enter len => { (s.enter len).1 with pc := .idle }

/-! ## Runs -/

/-- What happens on the port. -/
inductive UsbEvent where
  | receive (data : List U8) (lens : List ℕ)
  | init
  /-- The thread calls `Read`. -/
  | read (len : ℕ)
  /-- The thread calls `ReadAsync`. -/
  | readAsync (len : ℕ)
  | tick (timedOut : Bool)
deriving DecidableEq, Repr

/-- One event; the thread has one call at a time. -/
def UsbCdc.step (s : UsbCdc) : UsbEvent → UsbCdc
  | .receive data lens => s.handleReceive data lens
  | .init => s.handleInit
  | .read len => if s.pc = .idle ∧ len ≠ 0 then { s with pc := .wait len } else s
  | .readAsync len => if s.pc = .idle ∧ s.rxAsyncLen = 0 then { s with pc := .enter len } else s
  | .tick timedOut => s.tick timedOut

/-- A run. -/
def UsbCdc.run (s : UsbCdc) (events : List UsbEvent) : UsbCdc := events.foldl UsbCdc.step s

variable {s : UsbCdc} {h t : ℕ}

/-! ## The counters -/

/-- What the thread knows of the ring. -/
def Pc.Knows (h t : ℕ) (tail : U32) (asyncLen : ℕ) : Pc → Prop
  | .compare _ x | .store _ x => x = tail
  | .take _ => t < h
  | .enter _ => asyncLen = 0
  | _ => True

/-- The port after `h` bytes into the ring and `t` out of it. A pending read leaves the ring empty. -/
structure UsbCdc.At (s : UsbCdc) (h t : ℕ) : Prop where
  head : s.rxHead = BitVec.ofNat 32 h
  tail : s.rxTail = BitVec.ofNat 32 t
  le : t + s.pc.ahead ≤ h
  room : h ≤ t + kRxBufferSize
  order : s.delivered ++ Ring.contents s.rxRing (t + s.pc.ahead) (h - t - s.pc.ahead) = s.accepted
  pending : s.rxAsyncLen ≠ 0 → h = t ∧ s.rxAsyncPos < s.rxAsyncLen
  knows : s.pc.Knows h t s.rxTail s.rxAsyncLen

theorem UsbCdc.At.start : ({} : UsbCdc).At 0 0 :=
  ⟨rfl, rfl, le_rfl, Nat.zero_le _, rfl, fun hne => absurd rfl hne, trivial⟩

theorem UsbCdc.At.tail_le (hat : s.At h t) : t ≤ h := (Nat.le_add_right t s.pc.ahead).trans hat.le

theorem UsbCdc.At.held_eq (hat : s.At h t) : (s.rxHead - s.rxTail).toNat = h - t := by
  have hroom := hat.room
  rw [hat.head, hat.tail]
  apply WrapClock.toNat_age hat.tail_le
  unfold kRxBufferSize at hroom
  omega

theorem UsbCdc.At.empty_iff (hat : s.At h t) : s.rxTail = s.rxHead ↔ t = h := by
  constructor
  · intro heq
    have hheld := hat.held_eq
    rw [heq, BitVec.sub_self] at hheld
    have hle := hat.le
    simp at hheld
    omega
  · rintro rfl
    rw [hat.head, hat.tail]

theorem UsbCdc.At.slot_tail (hat : s.At h t) : Ring.slot kRxBufferSize s.rxTail.toNat = Ring.slot kRxBufferSize t := by
  rw [hat.tail]
  exact Ring.slot_toNat (by decide) t

theorem UsbCdc.At.slot_head (hat : s.At h t) : Ring.slot kRxBufferSize s.rxHead.toNat = Ring.slot kRxBufferSize h := by
  rw [hat.head]
  exact Ring.slot_toNat (by decide) h

/-- What no reader has, by the counters. -/
theorem UsbCdc.At.buffered_eq (hat : s.At h t) :
    s.buffered = Ring.contents s.rxRing (t + s.pc.ahead) (h - t - s.pc.ahead) := by
  have hmod : (s.rxTail.toNat + s.pc.ahead) % kRxBufferSize = (t + s.pc.ahead) % kRxBufferSize := by
    have hslot : s.rxTail.toNat % kRxBufferSize = t % kRxBufferSize := congrArg Fin.val hat.slot_tail
    rw [Nat.add_mod, hslot, ← Nat.add_mod]
  unfold UsbCdc.buffered UsbCdc.held
  rw [hat.held_eq, ← Ring.contents_mod, hmod, Ring.contents_mod]

/-! ## One operation -/

/-- **A byte of a packet** goes behind the last one. -/
theorem UsbCdc.At.pushOne (hat : s.At h t) (hidle : s.rxAsyncLen = 0) (hroom : h < t + kRxBufferSize) (b : U8) :
    ({ s with
      rxRing := Function.update s.rxRing (Ring.slot kRxBufferSize s.rxHead.toNat) b
      rxHead := s.rxHead + 1
      accepted := s.accepted ++ [b] } : UsbCdc).At (h + 1) t := by
  have hle := hat.le
  refine ⟨?_, hat.tail, by show t + s.pc.ahead ≤ h + 1; omega, hroom, ?_, fun hne => absurd hidle hne, ?_⟩
  · show s.rxHead + 1 = BitVec.ofNat 32 (h + 1)
    rw [hat.head, BitVec.ofNat_add]
    rfl
  · show s.delivered ++ Ring.contents (Function.update s.rxRing (Ring.slot kRxBufferSize s.rxHead.toNat) b)
      (t + s.pc.ahead) (h + 1 - t - s.pc.ahead) = s.accepted ++ [b]
    rw [hat.slot_head, show h + 1 - t - s.pc.ahead = h - t - s.pc.ahead + 1 by omega]
    have hend : h = t + s.pc.ahead + (h - t - s.pc.ahead) := by omega
    nth_rewrite 1 [hend]
    rw [Ring.contents_update (by omega), ← List.append_assoc, hat.order]
  · have hknows := hat.knows
    revert hknows
    show s.pc.Knows h t s.rxTail s.rxAsyncLen → s.pc.Knows (h + 1) t s.rxTail s.rxAsyncLen
    cases s.pc with
    | take left => exact Nat.lt_succ_of_lt
    | _ => exact id

/-- **The rest of a packet** goes into the ring as far as it has room. -/
theorem UsbCdc.At.push (hat : s.At h t) (bs : List U8) (hidle : bs = [] ∨ s.rxAsyncLen = 0) :
    ∃ k ≤ bs.length, (s.push bs).At (h + k) t ∧ (s.push bs).accepted = s.accepted ++ bs.take k ∧
      (k < bs.length → (s.push bs).held = kRxBufferSize) := by
  induction bs generalizing s h with
  | nil => exact ⟨0, le_rfl, hat, by simp [UsbCdc.push], fun hlt => absurd hlt (Nat.not_lt_zero _)⟩
  | cons b bs ih =>
      have hzero : s.rxAsyncLen = 0 := hidle.resolve_left (List.cons_ne_nil b bs)
      unfold UsbCdc.push
      rw [hat.held_eq]
      have hfits := hat.room
      have hle := hat.le
      split
      · refine ⟨0, Nat.zero_le _, hat, by simp, fun _ => ?_⟩
        unfold UsbCdc.held
        rw [hat.held_eq]
        omega
      · obtain ⟨k, hk, hafter, hacc, hfull⟩ := ih (hat.pushOne hzero (by omega) b) (Or.inr hzero)
        refine ⟨k + 1, Nat.succ_le_succ hk, ?_, ?_, fun hlt => hfull (Nat.lt_of_succ_lt_succ hlt)⟩
        · rw [Nat.add_comm k 1, ← Nat.add_assoc]
          exact hafter
        · rw [hacc, List.take_succ_cons, List.append_assoc, List.singleton_append]

/-- An empty ring has nothing for a read. -/
theorem drain_empty (hempty : s.rxTail = s.rxHead) (len : ℕ) : s.drain len = (s, len) := by
  cases len with
  | zero => rfl
  | succ len => exact if_pos hempty

/-- What a callback does on an empty ring: at most a read is pending. -/
theorem fire_cases (hempty : s.rxTail = s.rxHead) (hidle : s.rxAsyncLen = 0) (lens : List ℕ) :
    s.fire lens = s ∨ ∃ len, len ≠ 0 ∧ len ∈ lens ∧ s.fire lens = { s with rxAsyncPos := 0, rxAsyncLen := len } := by
  induction lens with
  | nil => exact Or.inl rfl
  | cons len lens ih =>
      unfold UsbCdc.fire UsbCdc.enter
      rw [if_neg (not_not.mpr hidle), drain_empty hempty]
      cases len with
      | zero =>
          rcases ih with heq | ⟨len, hne, hmem, heq⟩
          · exact Or.inl heq
          · exact Or.inr ⟨len, hne, List.mem_cons_of_mem _ hmem, heq⟩
      | succ len =>
          refine Or.inr ⟨len + 1, Nat.succ_ne_zero len, List.mem_cons_self, ?_⟩
          simp

/-- A callback on an empty ring keeps the counters. -/
theorem UsbCdc.At.fire (hat : s.At t t) (hidle : s.rxAsyncLen = 0) (hpc : ∀ len, s.pc ≠ .enter len) (lens : List ℕ) :
    (s.fire lens).At t t ∧ (s.fire lens).accepted = s.accepted ∧ (lens = [] → (s.fire lens).rxAsyncLen = 0) := by
  rcases fire_cases (hat.empty_iff.mpr rfl) hidle lens with heq | ⟨len, hne, hmem, heq⟩
  · rw [heq]
    exact ⟨hat, rfl, fun _ => hidle⟩
  · rw [heq]
    refine ⟨⟨hat.head, hat.tail, hat.le, hat.room, hat.order, fun _ => ⟨rfl, Nat.pos_of_ne_zero hne⟩, ?_⟩, rfl, ?_⟩
    · have hknows := hat.knows
      revert hknows
      show s.pc.Knows t t s.rxTail s.rxAsyncLen → s.pc.Knows t t s.rxTail len
      cases hcase : s.pc with
      | enter len => exact absurd hcase (hpc len)
      | _ => exact id
    · rintro rfl
      exact absurd hmem List.not_mem_nil

/-- The bytes already buffered go to a read first, and it wants more only when there are none left. -/
theorem UsbCdc.At.drain (hat : s.At h t) {n : ℕ} (hpc : s.pc = .enter n) (len : ℕ) :
    ∃ t', (s.drain len).1.At h t' ∧ (s.drain len).1.pc = .enter n ∧ (s.drain len).1.accepted = s.accepted ∧
      (s.drain len).1.rxAsyncLen = 0 ∧ (s.drain len).2 ≤ len ∧ ((s.drain len).2 ≠ 0 → t' = h) := by
  have hzero : s.rxAsyncLen = 0 := by
    have hknows := hat.knows
    rw [hpc] at hknows
    exact hknows
  induction len generalizing s t with
  | zero => exact ⟨t, hat, hpc, rfl, hzero, le_rfl, fun hne => absurd rfl hne⟩
  | succ len ih =>
      unfold UsbCdc.drain
      by_cases hempty : s.rxTail = s.rxHead
      · rw [if_pos hempty]
        exact ⟨t, hat, hpc, rfl, hzero, le_rfl, fun _ => hat.empty_iff.mp hempty⟩
      · rw [if_neg hempty]
        have hlt : t < h := lt_of_le_of_ne hat.tail_le fun heq => hempty (hat.empty_iff.mpr heq)
        have hroom := hat.room
        have hahead : s.pc.ahead = 0 := by rw [hpc]; rfl
        have hnext : ({ s with
            delivered := s.delivered ++ [s.rxRing (Ring.slot kRxBufferSize s.rxTail.toNat)]
            rxTail := s.rxTail + 1 } : UsbCdc).At h (t + 1) := by
          refine ⟨hat.head, ?_, by show t + 1 + s.pc.ahead ≤ h; omega, by omega, ?_, fun hne => absurd hzero hne, ?_⟩
          · show s.rxTail + 1 = BitVec.ofNat 32 (t + 1)
            rw [hat.tail, BitVec.ofNat_add]
            rfl
          · have horder := hat.order
            rw [hahead, Nat.add_zero, Nat.sub_zero, show h - t = h - (t + 1) + 1 by omega, Ring.contents_succ] at horder
            show s.delivered ++ [s.rxRing (Ring.slot kRxBufferSize s.rxTail.toNat)] ++
              Ring.contents s.rxRing (t + 1 + s.pc.ahead) (h - (t + 1) - s.pc.ahead) = s.accepted
            rw [hahead, Nat.add_zero, Nat.sub_zero, hat.slot_tail, List.append_assoc, List.singleton_append, horder]
          · show s.pc.Knows h (t + 1) (s.rxTail + 1) s.rxAsyncLen
            rw [hpc]
            exact hzero
        obtain ⟨t', hafter, hpc', hacc, hzero', hle, hempty'⟩ := ih hnext hpc hzero
        exact ⟨t', hafter, hpc', hacc, hzero', Nat.le_succ_of_le hle, hempty'⟩

/-- **The body of `ReadAsync`**: a read that stays pending leaves the ring empty. -/
theorem UsbCdc.At.enter (hat : s.At h t) {len : ℕ} (hpc : s.pc = .enter len) :
    ∃ t', ({ (s.enter len).1 with pc := .idle } : UsbCdc).At h t' ∧ (s.enter len).1.accepted = s.accepted := by
  obtain ⟨t', hafter, hpc', hacc, hzero, hle, hempty⟩ := hat.drain hpc len
  unfold UsbCdc.enter
  generalize hdrain : s.drain len = drained at *
  obtain ⟨s', left⟩ := drained
  have hahead : s'.pc.ahead = 0 := by
    rw [show s'.pc = .enter len from hpc']
    rfl
  have hidle : ({ s' with pc := .idle } : UsbCdc).At h t' := by
    refine ⟨hafter.head, hafter.tail, hafter.tail_le, hafter.room, ?_, hafter.pending, trivial⟩
    have horder := hafter.order
    rw [show s'.pc.ahead = 0 from hahead] at horder
    exact horder
  by_cases hleft : left = 0
  · simp only [if_pos hleft]
    exact ⟨t', hidle, hacc⟩
  · simp only [if_neg hleft]
    refine ⟨t', ⟨hidle.head, hidle.tail, hidle.le, hidle.room, hidle.order, fun _ => ⟨(hempty hleft).symm, ?_⟩, trivial⟩, hacc⟩
    show len - left < len
    have hle' : left ≤ len := hle
    omega

/-- **A packet**: a first part of it is taken, and all of it unless the ring is full. -/
theorem UsbCdc.At.receive (hat : s.At h t) {data : List U8} {lens : List ℕ}
    (ho : lens = [] ∨ s.rxAsyncLen = 0 ∨ data.length ≤ s.rxAsyncLen - s.rxAsyncPos) :
    ∃ h', (s.handleReceive data lens).At h' t ∧ ∃ k ≤ data.length,
      (s.handleReceive data lens).accepted = s.accepted ++ data.take k ∧
        (k < data.length → (s.handleReceive data lens).held = kRxBufferSize) := by
  unfold UsbCdc.handleReceive
  by_cases hzero : s.rxAsyncLen = 0
  · rw [if_pos hzero]
    obtain ⟨k, hk, hafter, hacc, hfull⟩ := hat.push data (Or.inr hzero)
    exact ⟨h + k, hafter, k, hk, hacc, hfull⟩
  · rw [if_neg hzero]
    obtain ⟨rfl, hpos⟩ := hat.pending hzero
    have hahead : s.pc.ahead = 0 := by
      have hle := hat.le
      omega
    have hpc : ∀ len, s.pc ≠ .enter len := by
      intro len heq
      have hknows := hat.knows
      rw [heq] at hknows
      exact hzero hknows
    -- the first bytes go to the pending read, past an empty ring
    have htaken : ∀ i asyncLen asyncPos, (asyncLen ≠ 0 → asyncPos < asyncLen) → ({ s with
        accepted := s.accepted ++ data.take i, delivered := s.delivered ++ data.take i
        rxAsyncPos := asyncPos, rxAsyncLen := asyncLen } : UsbCdc).At h h := by
      intro i asyncLen asyncPos hpending
      refine ⟨hat.head, hat.tail, hat.le, hat.room, ?_, fun hne => ⟨rfl, hpending hne⟩, ?_⟩
      · have horder := hat.order
        rw [hahead, Nat.sub_self, Nat.sub_zero] at horder
        show s.delivered ++ data.take i ++ Ring.contents s.rxRing (h + s.pc.ahead) (h - h - s.pc.ahead) =
          s.accepted ++ data.take i
        rw [hahead, Nat.sub_self, Nat.sub_zero, ← horder]
        simp [Ring.contents]
      · have hknows := hat.knows
        revert hknows
        show s.pc.Knows h h s.rxTail s.rxAsyncLen → s.pc.Knows h h s.rxTail asyncLen
        cases hcase : s.pc with
        | enter len => exact absurd hcase (hpc len)
        | _ => exact id
    generalize hi : min data.length (s.rxAsyncLen - s.rxAsyncPos) = i
    have hile : i ≤ data.length := hi ▸ min_le_left _ _
    dsimp only
    by_cases hdone : s.rxAsyncPos + i = s.rxAsyncLen
    · rw [if_pos hdone]
      obtain ⟨hfired, hacc, hnone⟩ := (htaken i 0 (s.rxAsyncPos + i) fun hne => absurd rfl hne).fire rfl hpc lens
      have hrest : data.drop i = [] ∨ (UsbCdc.fire lens { s with
          accepted := s.accepted ++ data.take i, delivered := s.delivered ++ data.take i
          rxAsyncPos := s.rxAsyncPos + i, rxAsyncLen := 0 }).rxAsyncLen = 0 := by
        rcases ho with hlens | hno | hfits
        · exact Or.inr (hnone hlens)
        · exact absurd hno hzero
        · exact Or.inl (List.drop_eq_nil_of_le (by omega))
      obtain ⟨k, hk, hafter, hacc', hfull⟩ := hfired.push (data.drop i) hrest
      rw [List.length_drop] at hk hfull
      refine ⟨h + k, hafter, i + k, by omega, ?_, fun hlt => hfull (by omega)⟩
      rw [hacc', hacc, List.take_add, List.append_assoc]
    · rw [if_neg hdone]
      have hall : i = data.length := by omega
      rw [List.drop_eq_nil_of_le (by omega)]
      refine ⟨h, htaken i s.rxAsyncLen (s.rxAsyncPos + i) (fun _ => by omega), i, hile, rfl, fun hlt => ?_⟩
      omega

/-- **A step of the thread** keeps the counters and what was taken. -/
theorem UsbCdc.At.tick (hat : s.At h t) (timedOut : Bool) :
    ∃ t', (s.tick timedOut).At h t' ∧ (s.tick timedOut).accepted = s.accepted := by
  have hle := hat.le
  have horder := hat.order
  have hknows := hat.knows
  unfold UsbCdc.tick
  cases hpc : s.pc with
  | idle => exact ⟨t, hat, rfl⟩
  | wait left =>
      rw [hpc] at horder
      exact ⟨t, ⟨hat.head, hat.tail, hat.tail_le, hat.room, horder, hat.pending, rfl⟩, rfl⟩
  | compare left tail =>
      rw [hpc] at horder hknows
      obtain rfl : tail = s.rxTail := hknows
      dsimp only
      by_cases hempty : s.rxTail = s.rxHead
      · rw [if_pos hempty]
        refine ⟨t, ⟨hat.head, hat.tail, ?_, hat.room, ?_, hat.pending, ?_⟩, rfl⟩
        · cases timedOut <;> exact hat.tail_le
        · cases timedOut <;> exact horder
        · cases timedOut <;> exact trivial
      · rw [if_neg hempty]
        have hlt : t < h := lt_of_le_of_ne hat.tail_le fun heq => hempty (hat.empty_iff.mpr heq)
        exact ⟨t, ⟨hat.head, hat.tail, hat.tail_le, hat.room, horder, hat.pending, hlt⟩, rfl⟩
  | take left =>
      rw [hpc] at horder hknows
      have hlt : t < h := hknows
      refine ⟨t, ⟨hat.head, hat.tail, hlt, hat.room, ?_, fun hne => ?_, trivial⟩, rfl⟩
      · show s.delivered ++ [s.rxRing (Ring.slot kRxBufferSize s.rxTail.toNat)] ++
          Ring.contents s.rxRing (t + 1) (h - t - 1) = s.accepted
        rw [← horder, hat.slot_tail, List.append_assoc, List.singleton_append, ← Ring.contents_succ]
        show _ = s.delivered ++ Ring.contents s.rxRing t (h - t)
        rw [Nat.sub_add_cancel (by omega)]
      · exact absurd (hat.pending hne).1 hlt.ne'
  | load left =>
      rw [hpc] at horder hle
      exact ⟨t, ⟨hat.head, hat.tail, hle, hat.room, horder, hat.pending, rfl⟩, rfl⟩
  | store left tail =>
      rw [hpc] at horder hknows hle
      obtain rfl : tail = s.rxTail := hknows
      have hlt : t + 1 ≤ h := hle
      have hroom := hat.room
      have hahead : (if left = 0 then Pc.idle else Pc.wait left).ahead = 0 := by split <;> rfl
      refine ⟨t + 1, ⟨hat.head, ?_, ?_, by omega, ?_, fun hne => ?_, ?_⟩, rfl⟩
      · show s.rxTail + 1 = BitVec.ofNat 32 (t + 1)
        rw [hat.tail, BitVec.ofNat_add]
        rfl
      · show t + 1 + (if left = 0 then Pc.idle else Pc.wait left).ahead ≤ h
        omega
      · show s.delivered ++ Ring.contents s.rxRing (t + 1 + (if left = 0 then Pc.idle else Pc.wait left).ahead)
          (h - (t + 1) - (if left = 0 then Pc.idle else Pc.wait left).ahead) = s.accepted
        rw [hahead, ← horder, Nat.add_zero, Nat.sub_zero, ← Nat.sub_sub]
        rfl
      · have := (hat.pending hne).1
        omega
      · show (if left = 0 then Pc.idle else Pc.wait left).Knows h (t + 1) (s.rxTail + 1) s.rxAsyncLen
        split <;> trivial
  | enter len =>
      obtain ⟨t', hafter, hacc⟩ := hat.enter hpc
      exact ⟨t', hafter, hacc⟩

/-! ## Runs -/

/-- `Read` has loaded the tail. -/
def Pc.started : Pc → Bool
  | .compare _ _ | .take _ | .load _ | .store _ _ => true
  | _ => false

/-- A callback asks for a read only at the end of its packet, and the port starts anew only while `Read` waits. -/
def UsbEvent.Orderly (s : UsbCdc) : UsbEvent → Prop
  | .receive data lens => lens = [] ∨ s.rxAsyncLen = 0 ∨ data.length ≤ s.rxAsyncLen - s.rxAsyncPos
  | .init => s.pc.started = false
  | _ => True

/-- Every event of a run is in order. -/
def UsbOrderly : UsbCdc → List UsbEvent → Prop
  | _, [] => True
  | s, e :: es => e.Orderly s ∧ UsbOrderly (s.step e) es

/-- **One event** keeps the counters. -/
theorem UsbCdc.At.step (hat : s.At h t) {e : UsbEvent} (ho : e.Orderly s) : ∃ h' t', (s.step e).At h' t' := by
  cases e with
  | receive data lens =>
      obtain ⟨h', hafter, -⟩ := hat.receive ho
      exact ⟨h', t, hafter⟩
  | init =>
      have hahead : s.pc.ahead = 0 := by
        have hnot : s.pc.started = false := ho
        cases hpc : s.pc <;> simp_all [Pc.started, Pc.ahead]
      refine ⟨0, 0, ⟨rfl, rfl, ?_, Nat.zero_le _, ?_, fun hne => ⟨rfl, (hat.pending hne).2⟩, ?_⟩⟩
      · show 0 + s.pc.ahead ≤ 0
        omega
      · show s.delivered ++ Ring.contents s.rxRing (0 + s.pc.ahead) (0 - 0 - s.pc.ahead) = s.delivered
        simp [Ring.contents]
      · have hnot : s.pc.started = false := ho
        have hknows := hat.knows
        revert hknows
        show s.pc.Knows h t s.rxTail s.rxAsyncLen → s.pc.Knows 0 0 0 s.rxAsyncLen
        cases hpc : s.pc with
        | enter len => exact id
        | idle => exact id
        | wait left => exact id
        | _ => simp [hpc, Pc.started] at hnot
  | read len =>
      unfold UsbCdc.step
      dsimp only
      split
      · rename_i hidle
        have horder := hat.order
        rw [hidle.1] at horder
        exact ⟨h, t, ⟨hat.head, hat.tail, hat.tail_le, hat.room, horder, hat.pending, trivial⟩⟩
      · exact ⟨h, t, hat⟩
  | readAsync len =>
      unfold UsbCdc.step
      dsimp only
      split
      · rename_i hidle
        have horder := hat.order
        rw [hidle.1] at horder
        exact ⟨h, t, ⟨hat.head, hat.tail, hat.tail_le, hat.room, horder, hat.pending, hidle.2⟩⟩
      · exact ⟨h, t, hat⟩
  | tick timedOut =>
      obtain ⟨t', hafter, -⟩ := hat.tick timedOut
      exact ⟨h, t', hafter⟩

theorem UsbCdc.At.run {es : List UsbEvent} (hat : s.At h t) (ho : UsbOrderly s es) : ∃ h' t', (s.run es).At h' t' := by
  induction es generalizing s h t with
  | nil => exact ⟨h, t, hat⟩
  | cons e es ih =>
      obtain ⟨h', t', hafter⟩ := hat.step ho.1
      exact ih hafter ho.2

/-! ## The stream -/

/-- **The bytes of the port come in order.** In every run of packets, reads and new starts, what readers have with what the
ring still holds is what was taken from packets, in order; a packet is taken from its start on and cut short only when the
ring is full, and no step of a read changes what was taken. -/
theorem bytes_in_order (es : List UsbEvent) (ho : UsbOrderly {} es) :
    let s := UsbCdc.run {} es
    s.delivered ++ s.buffered = s.accepted ∧ s.held ≤ kRxBufferSize ∧ (s.rxAsyncLen ≠ 0 → s.buffered = []) ∧
      (∀ data lens, (UsbEvent.receive data lens).Orderly s → ∃ k ≤ data.length,
        (s.handleReceive data lens).accepted = s.accepted ++ data.take k ∧
          (k < data.length → (s.handleReceive data lens).held = kRxBufferSize)) ∧
      ∀ timedOut, (s.tick timedOut).accepted = s.accepted := by
  obtain ⟨h, t, hat⟩ := UsbCdc.At.start.run ho
  intro s
  have hroom := hat.room
  refine ⟨?_, ?_, fun hne => ?_, fun data lens ho => ?_, fun timedOut => ?_⟩
  · rw [hat.buffered_eq]
    exact hat.order
  · unfold UsbCdc.held
    rw [hat.held_eq]
    omega
  · obtain ⟨rfl, -⟩ := hat.pending hne
    rw [hat.buffered_eq]
    simp [Ring.contents]
  · obtain ⟨h', -, hk⟩ := hat.receive ho
    exact hk
  · obtain ⟨t', -, hacc⟩ := hat.tick timedOut
    exact hacc

/-- Two packets, of which the second completes a pending read whose callback asks for another. -/
def asyncReads : List UsbEvent := [.readAsync 3, .tick false, .receive [1, 2] [], .receive [3] [1], .receive [4, 5] [], .read 1]

/-- The port gives out the bytes of three packets in their order. -/
theorem bytes_in_order_async :
    (UsbCdc.run {} asyncReads).delivered ++ (UsbCdc.run {} asyncReads).buffered = (UsbCdc.run {} asyncReads).accepted :=
  (bytes_in_order asyncReads
    ⟨trivial, trivial, Or.inl rfl, Or.inr (Or.inr le_rfl), Or.inl rfl, trivial, trivial⟩).1

/-- A callback that asks for a read in the middle of a packet gets the byte of the next packet first. -/
example : (UsbCdc.run {} [.readAsync 1, .tick false, .receive [1, 2] [1], .receive [3] []]).delivered = [1, 3] := rfl

/-- A new start between the comparison and the increment leaves a ring that seems to hold `2 ^ 32 - 1` bytes. -/
example :
    (UsbCdc.run {} [.read 2, .receive [7] [], .tick false, .tick false, .init, .tick false, .tick false, .tick false]).held =
      2 ^ 32 - 1 := rfl

end Lhre.Lhal.Stm32
