import Mathlib.Data.List.GetD
import Lhre.Theory.Ring
import Lhre.Theory.Trace
import Lhre.Drivers.RxSlot

/-!
# `Drivers.CanInbox` — the queue between the CAN interrupt and the control loop

`longhorn::CanInbox` (`drivers/longhorn/include/longhorn/can_inbox.hpp`): a single-producer single-consumer ring of 64
slots between free-running `size_t` indices. Every load, every access to a slot and every store is a step of its own,
and the steps of the producer's `Push` and the consumer's `Pop` interleave in any order. The indices have any width of
at least 7 bits (`w + 7`), so `size_t` is an instance.

## Contents
- **The queue.** `Slot`, `CanInbox`, where each side is in its call, and one step of each.
- **Histories.** `Traced`: the queue with the frames accepted and popped and the calls refused so far.
- **What a slot holds.** `Slot.Holds`, `copied` and `received`.
- **The invariant.** `ProducerOk`, `ConsumerOk`, `Inv`, kept by `Inv.produce` and `Inv.consume`.
- **The queue is a lossless bounded FIFO.** `received_byte`, `Lossless` and `inbox_lossless`.
-/

namespace Lhre.Longhorn

open Lhal

/-! ## The queue -/

/-- `CanInbox::kDepth`. -/
def kDepth : ℕ := 64

instance : NeZero kDepth := ⟨by decide⟩

/-- `CanInbox::Slot`. -/
structure Slot where
  id : U32 := 0
  extended : Bool := false
  len : U8 := 0
  data : Vector U8 8 := Vector.replicate 8 0
deriving DecidableEq

/-- A byte of a slot's payload. -/
def Slot.byte (s : Slot) (i : ℕ) : U8 := s.data.toList.getD i 0

/-- Where `Push` is: the step it takes next, and its locals. -/
inductive Producer (w : ℕ)
  | idle
  | loadTail (frame : CanFrame) (head : BitVec (w + 7))
  | drop
  | writeId (frame : CanFrame) (head : BitVec (w + 7))
  | writeExtended (frame : CanFrame) (head : BitVec (w + 7))
  | writeLen (frame : CanFrame) (head : BitVec (w + 7))
  /-- byte `k` of the copy, or the store of `head_` after the last -/
  | writeData (frame : CanFrame) (head : BitVec (w + 7)) (k : ℕ)

/-- Where `Pop` is: the step it takes next, and its locals. -/
inductive Consumer (w : ℕ)
  | idle
  | loadHead (tail : BitVec (w + 7))
  | readId (tail : BitVec (w + 7))
  | readExtended (tail : BitVec (w + 7)) (out : CanFrame)
  | readLen (tail : BitVec (w + 7)) (out : CanFrame)
  | readSize (tail : BitVec (w + 7)) (out : CanFrame)
  /-- byte `k` of the copy of `size` bytes, or the store of `tail_` after the last -/
  | readData (tail : BitVec (w + 7)) (out : CanFrame) (size k : ℕ)

/-- `CanInbox`, with the two calls in progress. -/
structure CanInbox (w : ℕ) where
  slots : Fin kDepth → Slot := fun _ => {}
  head : BitVec (w + 7) := 0
  tail : BitVec (w + 7) := 0
  dropped : U32 := 0
  producer : Producer w := .idle
  consumer : Consumer w := .idle

variable {w : ℕ}

/-- The slot of an index: `slots_[index % kDepth]`. -/
def slotOf (index : BitVec (w + 7)) : Fin kDepth := Ring.slot kDepth index.toNat

/-- Writes to the slot of an index. -/
def CanInbox.write (q : CanInbox w) (index : BitVec (w + 7)) (f : Slot → Slot) : Fin kDepth → Slot :=
  Function.update q.slots (slotOf index) (f (q.slots (slotOf index)))

/-- The slot the producer writes to at its next step, if it writes one. -/
def CanInbox.writing (q : CanInbox w) : Option (Fin kDepth) :=
  match q.producer with
  | .writeId _ head | .writeExtended _ head | .writeLen _ head => some (slotOf head)
  | .writeData frame head k => if k < frame.len.toNat then some (slotOf head) else none
  | _ => none

/-! ## Histories -/

/-- The queue, the frames `Push` accepted and `Pop` returned, in order, how many accepted frames are published by a
    store of `head_`, and how many calls of `Push` began and were refused. -/
structure Traced (w : ℕ) where
  q : CanInbox w := {}
  accepted : List CanFrame := []
  published : ℕ := 0
  popped : List CanFrame := []
  calls : ℕ := 0
  refused : ℕ := 0

/-- The next step of `Push`; an idle producer is called with `frame`. -/
def Traced.produce (s : Traced w) (frame : CanFrame) : Traced w :=
  match s.q.producer with
  | .idle => { s with q := { s.q with producer := .loadTail frame s.q.head }, calls := s.calls + 1 }
  | .loadTail frame head =>
      if 8 < frame.len ∨ 64 ≤ head - s.q.tail then { s with q := { s.q with producer := .drop } }
      else { s with q := { s.q with producer := .writeId frame head }, accepted := s.accepted ++ [frame] }
  | .drop =>
      { s with q := { s.q with dropped := s.q.dropped + 1, producer := .idle }, refused := s.refused + 1 }
  | .writeId frame head =>
      { s with q :=
          { s.q with
            slots := s.q.write head fun slot => { slot with id := frame.id }
            producer := .writeExtended frame head } }
  | .writeExtended frame head =>
      { s with q :=
          { s.q with
            slots := s.q.write head fun slot => { slot with extended := frame.extendedId }
            producer := .writeLen frame head } }
  | .writeLen frame head =>
      { s with q :=
          { s.q with
            slots := s.q.write head fun slot => { slot with len := frame.len }
            producer := .writeData frame head 0 } }
  | .writeData frame head k =>
      if k < frame.len.toNat then
        { s with q :=
            { s.q with
              slots := s.q.write head fun slot => { slot with data := slot.data.setIfInBounds k (frame.byte k) }
              producer := .writeData frame head (k + 1) } }
      else { s with q := { s.q with head := head + 1, producer := .idle }, published := s.published + 1 }

/-- The next step of `Pop`. -/
def Traced.consume (s : Traced w) : Traced w :=
  match s.q.consumer with
  | .idle => { s with q := { s.q with consumer := .loadHead s.q.tail } }
  | .loadHead tail =>
      -- an empty queue: `Pop` returns false
      if tail = s.q.head then { s with q := { s.q with consumer := .idle } }
      else { s with q := { s.q with consumer := .readId tail } }
  | .readId tail =>
      { s with q := { s.q with consumer := .readExtended tail { id := (s.q.slots (slotOf tail)).id } } }
  | .readExtended tail out =>
      { s with q :=
          { s.q with consumer := .readLen tail { out with extendedId := (s.q.slots (slotOf tail)).extended } } }
  | .readLen tail out =>
      { s with q := { s.q with consumer := .readSize tail { out with len := (s.q.slots (slotOf tail)).len } } }
  | .readSize tail out =>
      { s with q := { s.q with consumer := .readData tail out (s.q.slots (slotOf tail)).len.toNat 0 } }
  | .readData tail out size k =>
      if k < size then
        { s with q :=
            { s.q with
              consumer := .readData tail
                { out with data := out.data.setIfInBounds k ((s.q.slots (slotOf tail)).byte k) } size (k + 1) } }
      else { s with q := { s.q with tail := tail + 1, consumer := .idle }, popped := s.popped ++ [out] }

/-- Which side takes the next step. -/
inductive InboxEvent
  | produce (frame : CanFrame)
  | consume

/-- One step of an interleaving. -/
def Traced.step (s : Traced w) : InboxEvent → Traced w
  | .produce frame => s.produce frame
  | .consume => s.consume

/-! ## What a slot holds -/

/-- The slot holds the frame: its id, extended flag, length and as many payload bytes. -/
structure Slot.Holds (s : Slot) (f : CanFrame) : Prop where
  id : s.id = f.id
  extended : s.extended = f.extendedId
  len : s.len = f.len
  data : ∀ k, k < f.len.toNat → s.byte k = f.byte k

/-- A frame with the id, extended flag and length of `f` and its first `k` payload bytes. -/
def copied (f : CanFrame) (k : ℕ) : CanFrame :=
  { id := f.id
    extendedId := f.extendedId
    len := f.len
    data := Vector.ofFn fun i : Fin 64 => if i.val < k then f.byte i.val else 0 }

/-- **What a popped frame is**: the pushed one with zero bytes past its length. -/
def received (f : CanFrame) : CanFrame := copied f f.len.toNat

theorem copied_zero (f : CanFrame) :
    copied f 0 = { id := f.id, extendedId := f.extendedId, len := f.len } := by
  have : (Vector.ofFn fun i : Fin 64 => if i.val < 0 then f.byte i.val else 0) = Vector.replicate 64 0 := by
    ext i hi
    simp
  unfold copied
  rw [this]

/-- Copying one more byte. -/
theorem copied_succ (f : CanFrame) (k : ℕ) :
    { copied f k with data := (copied f k).data.setIfInBounds k (f.byte k) } = copied f (k + 1) := by
  have : (Vector.ofFn fun i : Fin 64 => if i.val < k then f.byte i.val else 0).setIfInBounds k (f.byte k) =
      Vector.ofFn fun i : Fin 64 => if i.val < k + 1 then f.byte i.val else 0 := by
    ext i hi
    rw [Vector.getElem_setIfInBounds, Vector.getElem_ofFn, Vector.getElem_ofFn]
    by_cases hik : k = i
    · subst hik
      simp
    · have hlt : i < k + 1 ↔ i < k := by omega
      simp [hik, hlt]
  unfold copied
  simp only [this]

/-- A byte written to a slot is the byte read there; the others stay. -/
theorem Slot.byte_set (s : Slot) {k : ℕ} (hk : k < 8) (v : U8) (j : ℕ) :
    Slot.byte { s with data := s.data.setIfInBounds k v } j = if j = k then v else s.byte j := by
  unfold Slot.byte
  by_cases hj : j < 8
  · simp [List.getD, hj, List.getElem_set, eq_comm]
  · have : j ≠ k := by omega
    simp [List.getD, hj, this]

/-! ## The invariant -/

/-- The producer holds an accepted frame, to be written behind the `published` ones with `popped` of them gone. -/
structure Writing (accepted : List CanFrame) (published popped : ℕ) (frame : CanFrame) (head : BitVec (w + 7)) :
    Prop where
  length : accepted.length = published + 1
  item : accepted.getD published {} = frame
  head : head = BitVec.ofNat (w + 7) published
  short : frame.len.toNat ≤ 8
  room : published < popped + kDepth

/-- What holds at each step of `Push`, of the slot behind the published frames: nothing is under way before the
    acceptance, and after it the slot holds what has been written so far. -/
def ProducerOk (accepted : List CanFrame) (published popped : ℕ) (slot : Slot) : Producer w → Prop
  | .idle => accepted.length = published
  | .loadTail _ head => accepted.length = published ∧ head = BitVec.ofNat (w + 7) published
  | .drop => accepted.length = published
  | .writeId frame head => Writing accepted published popped frame head
  | .writeExtended frame head => Writing accepted published popped frame head ∧ slot.id = frame.id
  | .writeLen frame head =>
      Writing accepted published popped frame head ∧ slot.id = frame.id ∧ slot.extended = frame.extendedId
  | .writeData frame head k =>
      Writing accepted published popped frame head ∧ slot.id = frame.id ∧ slot.extended = frame.extendedId ∧
        slot.len = frame.len ∧ k ≤ frame.len.toNat ∧ ∀ j, j < k → slot.byte j = frame.byte j

/-- The consumer reads the first published frame that is not popped. -/
structure Reading (published popped : ℕ) (tail : BitVec (w + 7)) : Prop where
  tail : tail = BitVec.ofNat (w + 7) popped
  unread : popped < published

/-- What holds at each step of `Pop`: the output is the frame as far as it has been read. -/
def ConsumerOk (frame : CanFrame) (published popped : ℕ) : Consumer w → Prop
  | .idle => True
  | .loadHead tail => tail = BitVec.ofNat (w + 7) popped
  | .readId tail => Reading published popped tail
  | .readExtended tail out => Reading published popped tail ∧ out = { id := frame.id }
  | .readLen tail out =>
      Reading published popped tail ∧ out = { id := frame.id, extendedId := frame.extendedId }
  | .readSize tail out => Reading published popped tail ∧ out = copied frame 0
  | .readData tail out size k =>
      Reading published popped tail ∧ size = frame.len.toNat ∧ k ≤ size ∧ out = copied frame k

/-- The number of calls of `Push` that have begun and are neither accepted nor refused. -/
def pendingCalls : Producer w → ℕ
  | .loadTail _ _ => 1
  | .drop => 1
  | _ => 0

/-- Frame `i` of those accepted. -/
def Traced.item (s : Traced w) (i : ℕ) : CanFrame := s.accepted.getD i {}

/-- **The invariant of the queue.** -/
structure Inv (s : Traced w) : Prop where
  head : s.q.head = BitVec.ofNat (w + 7) s.published
  tail : s.q.tail = BitVec.ofNat (w + 7) s.popped.length
  unread : s.popped.length ≤ s.published
  room : s.published ≤ s.popped.length + kDepth
  window : Ring.Window Slot.Holds s.q.slots s.item s.popped.length s.published
  popped : ∀ i, i < s.popped.length → s.popped.getD i {} = received (s.item i)
  short : ∀ i, i < s.accepted.length → (s.item i).len.toNat ≤ 8
  accepted : s.published ≤ s.accepted.length
  producer : ProducerOk s.accepted s.published s.popped.length (s.q.slots (Ring.slot kDepth s.published)) s.q.producer
  consumer : ConsumerOk (s.item s.popped.length) s.published s.popped.length s.q.consumer
  dropped : s.q.dropped = BitVec.ofNat 32 s.refused
  calls : s.calls = s.accepted.length + s.refused + pendingCalls s.q.producer

theorem inv_init : Inv ({} : Traced w) where
  head := rfl
  tail := rfl
  unread := le_rfl
  room := Nat.zero_le _
  window := Ring.Window.empty 0
  popped _ hi := absurd hi (Nat.not_lt_zero _)
  short _ hi := absurd hi (Nat.not_lt_zero _)
  accepted := le_rfl
  producer := rfl
  consumer := trivial
  dropped := rfl
  calls := rfl

/-- A slot found by a wrapping index. -/
theorem slotOf_ofNat (n : ℕ) : slotOf (BitVec.ofNat (w + 7) n) = Ring.slot kDepth n :=
  Ring.slot_toNat (Nat.pow_dvd_pow 2 (by omega) : 2 ^ 6 ∣ 2 ^ (w + 7)) n

theorem kDepth_lt : kDepth < 2 ^ (w + 7) :=
  lt_of_lt_of_le (by decide : kDepth < 2 ^ 7) (Nat.pow_le_pow_right (by decide) (by omega))

/-- **The test for a full ring is exact**, across the wrap of the indices. -/
theorem full_iff {published popped : ℕ} (hle : popped ≤ published) (hroom : published ≤ popped + kDepth) :
    (64 : BitVec (w + 7)) ≤ BitVec.ofNat (w + 7) published - BitVec.ofNat (w + 7) popped ↔
      published = popped + kDepth := by
  have hsmall : kDepth < 2 ^ (w + 7) := kDepth_lt
  have h64 : (64 : BitVec (w + 7)).toNat = kDepth := Nat.mod_eq_of_lt hsmall
  rw [WrapClock.le_age_iff hle (by omega), h64]
  omega

/-- **The test for an empty ring is exact**, across the wrap of the indices. -/
theorem empty_iff {published popped : ℕ} (hle : popped ≤ published) (hroom : published ≤ popped + kDepth) :
    BitVec.ofNat (w + 7) popped = BitVec.ofNat (w + 7) published ↔ popped = published := by
  have hsmall : kDepth < 2 ^ (w + 7) := kDepth_lt
  constructor
  · intro h
    have hage := WrapClock.toNat_age (w := w + 7) hle (by omega)
    rw [h, BitVec.sub_self] at hage
    have hzero : (0#(w + 7)).toNat = 0 := BitVec.toNat_zero
    omega
  · intro h
    rw [h]

/-- The reader's frame stays unread when frames are published behind it. -/
theorem Reading.mono {published published' popped : ℕ} {tail : BitVec (w + 7)} (h : Reading published popped tail)
    (hle : published ≤ published') : Reading published' popped tail where
  tail := h.tail
  unread := lt_of_lt_of_le h.unread hle

/-- Popping frames leaves the writer its room. -/
theorem Writing.mono {accepted : List CanFrame} {published popped popped' : ℕ} {frame : CanFrame}
    {head : BitVec (w + 7)} (h : Writing accepted published popped frame head) (hle : popped ≤ popped') :
    Writing accepted published popped' frame head where
  length := h.length
  item := h.item
  head := h.head
  short := h.short
  room := lt_of_lt_of_le h.room (Nat.add_le_add_right hle kDepth)

/-- What the consumer has read stays right when frames are accepted or published behind it. -/
theorem ConsumerOk.mono {frame frame' : CanFrame} {published published' popped : ℕ} {c : Consumer w}
    (h : ConsumerOk frame published popped c) (hle : published ≤ published')
    (hframe : popped < published → frame' = frame) : ConsumerOk frame' published' popped c := by
  cases c with
  | idle => trivial
  | loadHead tail => exact h
  | readId tail =>
      have hr : Reading published popped tail := h
      exact hr.mono hle
  | readExtended tail out =>
      obtain ⟨hr, hout⟩ := h
      rw [← hframe hr.unread] at hout
      exact ⟨hr.mono hle, hout⟩
  | readLen tail out =>
      obtain ⟨hr, hout⟩ := h
      rw [← hframe hr.unread] at hout
      exact ⟨hr.mono hle, hout⟩
  | readSize tail out =>
      obtain ⟨hr, hout⟩ := h
      rw [← hframe hr.unread] at hout
      exact ⟨hr.mono hle, hout⟩
  | readData tail out size k =>
      obtain ⟨hr, hsize, hk, hout⟩ := h
      rw [← hframe hr.unread] at hsize hout
      exact ⟨hr.mono hle, hsize, hk, hout⟩

/-- Popping a frame leaves the producer's step right. -/
theorem ProducerOk.mono {accepted : List CanFrame} {published popped popped' : ℕ} {slot : Slot} {p : Producer w}
    (h : ProducerOk accepted published popped slot p) (hle : popped ≤ popped') :
    ProducerOk accepted published popped' slot p := by
  cases p with
  | idle => exact h
  | loadTail frame head => exact h
  | drop => exact h
  | writeId frame head =>
      have hw : Writing accepted published popped frame head := h
      exact hw.mono hle
  | writeExtended frame head =>
      obtain ⟨hw, hslot⟩ := h
      exact ⟨hw.mono hle, hslot⟩
  | writeLen frame head =>
      obtain ⟨hw, hslot⟩ := h
      exact ⟨hw.mono hle, hslot⟩
  | writeData frame head k =>
      obtain ⟨hw, hslot⟩ := h
      exact ⟨hw.mono hle, hslot⟩

/-! ## The producer keeps the invariant -/

section Produce

variable {s : Traced w}

/-- A write to the slot behind the published frames leaves the rest of the invariant alone. -/
theorem Inv.write (h : Inv s) {frame : CanFrame} {head : BitVec (w + 7)}
    (hw : Writing s.accepted s.published s.popped.length frame head) (f : Slot → Slot) {p : Producer w}
    (hp : ProducerOk s.accepted s.published s.popped.length (f (s.q.slots (Ring.slot kDepth s.published))) p)
    (hcalls : s.calls = s.accepted.length + s.refused + pendingCalls p) :
    Inv { s with q := { s.q with slots := s.q.write head f, producer := p } } := by
  have hslots : s.q.write head f = Function.update s.q.slots (Ring.slot kDepth s.published)
      (f (s.q.slots (Ring.slot kDepth s.published))) := by
    unfold CanInbox.write
    rw [hw.head, slotOf_ofNat]
  refine { h with window := ?_, producer := ?_, calls := hcalls }
  · show Ring.Window Slot.Holds (s.q.write head f) s.item s.popped.length s.published
    rw [hslots]
    exact h.window.update hw.room _
  · show ProducerOk s.accepted s.published s.popped.length (s.q.write head f (Ring.slot kDepth s.published)) p
    rw [hslots, Function.update_self]
    exact hp

/-- Accepting a frame. -/
theorem Inv.accept (h : Inv s) {frame : CanFrame} {head : BitVec (w + 7)}
    (hp : s.q.producer = .loadTail frame head) (hlen : ¬ 8 < frame.len) (hfull : ¬ 64 ≤ head - s.q.tail) :
    Inv { s with q := { s.q with producer := .writeId frame head }, accepted := s.accepted ++ [frame] } := by
  have hprod := h.producer
  have hcalls := h.calls
  rw [hp] at hprod hcalls
  obtain ⟨hlength, hhead⟩ := hprod
  have hshort : frame.len.toNat ≤ 8 := BitVec.not_lt.mp hlen
  have hroom : s.published < s.popped.length + kDepth := by
    rw [hhead, h.tail, full_iff h.unread h.room] at hfull
    have := h.room
    omega
  -- the frames accepted before keep their numbers
  have hitem : ∀ i, i < s.accepted.length → (s.accepted ++ [frame]).getD i {} = s.item i := by
    intro i hi
    exact List.getD_append _ _ _ _ hi
  have hlast : (s.accepted ++ [frame]).getD s.published {} = frame := by
    rw [← hlength, List.getD_append_right _ _ _ _ le_rfl, Nat.sub_self]
    rfl
  refine { h with
    window := ?_, popped := ?_, short := ?_, accepted := ?_, producer := ?_, consumer := ?_, calls := ?_ }
  · apply h.window.congr
    intro i hi
    exact hitem i (by omega)
  · show ∀ i, i < s.popped.length → s.popped.getD i {} = received ((s.accepted ++ [frame]).getD i {})
    intro i hi
    have := h.unread
    rw [hitem i (by omega)]
    exact h.popped i hi
  · show ∀ i, i < (s.accepted ++ [frame]).length → ((s.accepted ++ [frame]).getD i {}).len.toNat ≤ 8
    intro i hi
    rw [List.length_append, List.length_singleton] at hi
    rcases Nat.lt_succ_iff_lt_or_eq.mp hi with hlt | rfl
    · rw [hitem i hlt]
      exact h.short i hlt
    · rw [hlength, hlast]
      exact hshort
  · show s.published ≤ (s.accepted ++ [frame]).length
    rw [List.length_append]
    omega
  · refine ⟨?_, hlast, hhead, hshort, hroom⟩
    rw [List.length_append, hlength]
    rfl
  · apply h.consumer.mono le_rfl
    intro hlt
    exact hitem s.popped.length (lt_of_lt_of_eq hlt hlength.symm)
  · show s.calls = (s.accepted ++ [frame]).length + s.refused + 0
    rw [List.length_append, hcalls]
    simp only [pendingCalls, List.length_singleton]
    omega

/-- Publishing the frame whose last byte is written. -/
theorem Inv.publish (h : Inv s) {frame : CanFrame} {head : BitVec (w + 7)} {k : ℕ}
    (hp : s.q.producer = .writeData frame head k) (hk : ¬ k < frame.len.toNat) :
    Inv { s with q := { s.q with head := head + 1, producer := .idle }, published := s.published + 1 } := by
  have hprod := h.producer
  have hcalls := h.calls
  rw [hp] at hprod hcalls
  obtain ⟨hw, hid, hext, hlen, hkle, hdata⟩ := hprod
  have hitem : s.item s.published = frame := hw.item
  refine { h with
    head := ?_, unread := ?_, room := ?_, window := ?_, accepted := ?_, producer := ?_, consumer := ?_,
    calls := hcalls }
  · show head + 1 = BitVec.ofNat (w + 7) (s.published + 1)
    rw [hw.head, BitVec.ofNat_add]
    rfl
  · exact Nat.le_succ_of_le h.unread
  · exact hw.room
  · apply h.window.push
    rw [hitem]
    refine ⟨hid, hext, hlen, ?_⟩
    intro j hj
    exact hdata j (lt_of_lt_of_le hj (not_lt.mp hk))
  · exact hw.length.ge
  · exact hw.length
  · apply h.consumer.mono (Nat.le_succ _)
    intro _
    rfl

/-- **A step of `Push` keeps the invariant.** -/
theorem Inv.produce (h : Inv s) (frame : CanFrame) : Inv (s.produce frame) := by
  have hprod := h.producer
  have hcalls := h.calls
  unfold Traced.produce
  cases hp : s.q.producer with
  | idle =>
      rw [hp] at hprod hcalls
      refine { h with producer := ⟨hprod, h.head⟩, calls := ?_ }
      show s.calls + 1 = _ + 1
      rw [hcalls]
      rfl
  | loadTail f head =>
      dsimp only
      split
      · rw [hp] at hprod hcalls
        exact { h with producer := hprod.1, calls := hcalls }
      · rename_i hok
        obtain ⟨hlen, hfull⟩ := not_or.mp hok
        exact h.accept hp hlen hfull
  | drop =>
      rw [hp] at hprod hcalls
      refine { h with producer := hprod, dropped := ?_, calls := ?_ }
      · show s.q.dropped + 1 = BitVec.ofNat 32 (s.refused + 1)
        rw [h.dropped, BitVec.ofNat_add]
        rfl
      · show s.calls = s.accepted.length + (s.refused + 1) + 0
        rw [hcalls]
        rfl
  | writeId f head =>
      rw [hp] at hprod hcalls
      exact h.write hprod _ ⟨hprod, rfl⟩ hcalls
  | writeExtended f head =>
      rw [hp] at hprod hcalls
      exact h.write hprod.1 _ ⟨hprod.1, hprod.2, rfl⟩ hcalls
  | writeLen f head =>
      rw [hp] at hprod hcalls
      obtain ⟨hw, hid, hext⟩ := hprod
      refine h.write hw _ ⟨hw, hid, hext, rfl, Nat.zero_le _, ?_⟩ hcalls
      intro j hj
      exact absurd hj (Nat.not_lt_zero j)
  | writeData f head k =>
      dsimp only
      split
      · rename_i hk
        rw [hp] at hprod hcalls
        obtain ⟨hw, hid, hext, hlen, -, hdata⟩ := hprod
        refine h.write hw _ ⟨hw, hid, hext, hlen, hk, ?_⟩ hcalls
        intro j hj
        have hk8 : k < 8 := lt_of_lt_of_le hk hw.short
        rw [Slot.byte_set _ hk8]
        by_cases hjk : j = k
        · rw [if_pos hjk, hjk]
        · rw [if_neg hjk]
          exact hdata j (by omega)
      · rename_i hk
        exact h.publish hp hk

end Produce

/-! ## The consumer keeps the invariant -/

section Consume

variable {s : Traced w}

/-- The slot the consumer reads holds the first published frame that is not popped. -/
theorem Inv.holds (h : Inv s) {tail : BitVec (w + 7)} (hr : Reading s.published s.popped.length tail) :
    (s.q.slots (slotOf tail)).Holds (s.item s.popped.length) := by
  rw [hr.tail, slotOf_ofNat]
  exact h.window _ le_rfl hr.unread

/-- Returning the frame whose last byte is copied. -/
theorem Inv.pop (h : Inv s) {tail : BitVec (w + 7)} {out : CanFrame} {size k : ℕ}
    (hc : s.q.consumer = .readData tail out size k) (hk : ¬ k < size) :
    Inv { s with q := { s.q with tail := tail + 1, consumer := .idle }, popped := s.popped ++ [out] } := by
  have hcons := h.consumer
  rw [hc] at hcons
  obtain ⟨hr, hsize, hkle, hout⟩ := hcons
  have hlength : (s.popped ++ [out]).length = s.popped.length + 1 := by simp
  have hlast : out = received (s.item s.popped.length) := by
    rw [hout, show k = size by omega, hsize]
    rfl
  have hunread := hr.unread
  refine { h with
    tail := ?_, unread := ?_, room := ?_, window := ?_, popped := ?_, producer := ?_, consumer := trivial }
  · show tail + 1 = BitVec.ofNat (w + 7) (s.popped ++ [out]).length
    rw [hlength, hr.tail, BitVec.ofNat_add]
    rfl
  · show (s.popped ++ [out]).length ≤ s.published
    omega
  · show s.published ≤ (s.popped ++ [out]).length + kDepth
    have := h.room
    omega
  · show Ring.Window Slot.Holds s.q.slots s.item (s.popped ++ [out]).length s.published
    rw [hlength]
    exact h.window.pop
  · show ∀ i, i < (s.popped ++ [out]).length → (s.popped ++ [out]).getD i {} = received (s.item i)
    intro i hi
    rw [hlength] at hi
    rcases Nat.lt_succ_iff_lt_or_eq.mp hi with hlt | rfl
    · rw [List.getD_append _ _ _ _ hlt]
      exact h.popped i hlt
    · rw [List.getD_append_right _ _ _ _ le_rfl, Nat.sub_self]
      exact hlast
  · have hle : s.popped.length ≤ (s.popped ++ [out]).length := by omega
    exact h.producer.mono hle

/-- **A step of `Pop` keeps the invariant.** -/
theorem Inv.consume (h : Inv s) : Inv s.consume := by
  have hcons := h.consumer
  unfold Traced.consume
  cases hc : s.q.consumer with
  | idle => exact { h with consumer := h.tail }
  | loadHead tail =>
      rw [hc] at hcons
      have htail : tail = BitVec.ofNat (w + 7) s.popped.length := hcons
      dsimp only
      split
      · exact { h with consumer := trivial }
      · rename_i hne
        rw [htail, h.head, empty_iff h.unread h.room] at hne
        have hlt : s.popped.length < s.published := lt_of_le_of_ne h.unread hne
        exact { h with consumer := ⟨htail, hlt⟩ }
  | readId tail =>
      rw [hc] at hcons
      have hr : Reading s.published s.popped.length tail := hcons
      refine { h with consumer := ⟨hr, ?_⟩ }
      rw [(h.holds hr).id]
      rfl
  | readExtended tail out =>
      rw [hc] at hcons
      obtain ⟨hr, hout⟩ := hcons
      refine { h with consumer := ⟨hr, ?_⟩ }
      rw [hout, (h.holds hr).extended]
      rfl
  | readLen tail out =>
      rw [hc] at hcons
      obtain ⟨hr, hout⟩ := hcons
      refine { h with consumer := ⟨hr, ?_⟩ }
      rw [hout, (h.holds hr).len, copied_zero]
      rfl
  | readSize tail out =>
      rw [hc] at hcons
      obtain ⟨hr, hout⟩ := hcons
      refine { h with consumer := ⟨hr, ?_, Nat.zero_le _, hout⟩ }
      rw [(h.holds hr).len]
      rfl
  | readData tail out size k =>
      dsimp only
      split
      · rename_i hk
        rw [hc] at hcons
        obtain ⟨hr, hsize, -, hout⟩ := hcons
        refine { h with consumer := ⟨hr, hsize, hk, ?_⟩ }
        have hbyte : (s.q.slots (slotOf tail)).byte k = (s.item s.popped.length).byte k :=
          (h.holds hr).data k (by rw [← hsize]; exact hk)
        rw [hbyte, hout]
        exact copied_succ _ k
      · rename_i hk
        exact h.pop hc hk

end Consume

/-! ## The queue is a lossless bounded FIFO -/

/-- A popped frame has the pushed payload bytes up to the length and zero bytes past it. -/
theorem received_byte (f : CanFrame) (hshort : f.len.toNat ≤ 8) (k : ℕ) :
    (received f).byte k = if k < f.len.toNat then f.byte k else 0 := by
  have hdata : (received f).data =
      Vector.ofFn fun i : Fin 64 => if i.val < f.len.toNat then f.byte i.val else 0 := rfl
  unfold CanFrame.byte
  rw [hdata]
  by_cases hk : k < 64
  · simp [List.getD, hk, CanFrame.byte]
  · have : ¬ k < f.len.toNat := by omega
    simp [List.getD, hk, this]

/-- What holds of the queue at every step of every interleaving. -/
structure Lossless (s : Traced w) : Prop where
  /-- the frames popped are the first of those accepted, in order, each once -/
  fifo : s.popped = (s.accepted.take s.popped.length).map received
  /-- a popped frame is the pushed one, with zero bytes past its length -/
  content : ∀ f ∈ s.accepted, (received f).id = f.id ∧ (received f).extendedId = f.extendedId ∧
    (received f).len = f.len ∧ ∀ k, (received f).byte k = if k < f.len.toNat then f.byte k else 0
  outstanding : s.popped.length ≤ s.accepted.length ∧ s.accepted.length ≤ s.popped.length + kDepth
  /-- the slot written next is none of those still to be read -/
  disjoint : ∀ k, s.q.writing = some k → ∀ i, s.popped.length ≤ i → i < s.published → Ring.slot kDepth i ≠ k
  /-- a call is refused exactly for a long frame or with 64 frames outstanding -/
  decides : ∀ frame head, s.q.producer = .loadTail frame head → ∀ next,
    ((s.produce next).q.producer = .drop ∧ (s.produce next).accepted = s.accepted ∧
        (8 < frame.len ∨ s.accepted.length = s.popped.length + kDepth)) ∨
      ((s.produce next).accepted = s.accepted ++ [frame] ∧
        ¬ (8 < frame.len ∨ s.accepted.length = s.popped.length + kDepth))
  /-- a `Pop` finds the queue empty exactly when every published frame is popped -/
  empty : ∀ tail, s.q.consumer = .loadHead tail →
    (s.consume.q.consumer = .idle ↔ s.popped.length = s.published)
  dropped : s.q.dropped = BitVec.ofNat 32 s.refused
  /-- every call of `Push` is accepted, refused or not yet decided -/
  calls : s.calls = s.accepted.length + s.refused + pendingCalls s.q.producer

section Lossless

variable {s : Traced w}

theorem ProducerOk.length_le {accepted : List CanFrame} {published popped : ℕ} {slot : Slot} {p : Producer w}
    (h : ProducerOk accepted published popped slot p) (hroom : published ≤ popped + kDepth) :
    accepted.length ≤ popped + kDepth := by
  have hwriting : ∀ {frame : CanFrame} {head : BitVec (w + 7)}, Writing accepted published popped frame head →
      accepted.length ≤ popped + kDepth := by
    intro frame head hw
    rw [hw.length]
    exact hw.room
  cases p with
  | idle => exact h.le.trans hroom
  | loadTail frame head => exact h.1.le.trans hroom
  | drop => exact h.le.trans hroom
  | writeId frame head => exact hwriting h
  | writeExtended frame head => exact hwriting h.1
  | writeLen frame head => exact hwriting h.1
  | writeData frame head k => exact hwriting h.1

/-- The slot written next is the one behind the published frames, and there is room for it. -/
theorem Inv.writing (h : Inv s) {k : Fin kDepth} (hk : s.q.writing = some k) :
    k = Ring.slot kDepth s.published ∧ s.published < s.popped.length + kDepth := by
  have hprod := h.producer
  have hslot : ∀ {frame : CanFrame} {head : BitVec (w + 7)},
      Writing s.accepted s.published s.popped.length frame head → some (slotOf head) = some k →
      k = Ring.slot kDepth s.published ∧ s.published < s.popped.length + kDepth := by
    intro frame head hw heq
    rw [hw.head, slotOf_ofNat] at heq
    exact ⟨(Option.some.inj heq).symm, hw.room⟩
  unfold CanInbox.writing at hk
  cases hp : s.q.producer with
  | idle => rw [hp] at hk; cases hk
  | loadTail frame head => rw [hp] at hk; cases hk
  | drop => rw [hp] at hk; cases hk
  | writeId frame head => rw [hp] at hk hprod; exact hslot hprod hk
  | writeExtended frame head => rw [hp] at hk hprod; exact hslot hprod.1 hk
  | writeLen frame head => rw [hp] at hk hprod; exact hslot hprod.1 hk
  | writeData frame head j =>
      rw [hp] at hk hprod
      dsimp only at hk
      split at hk
      · exact hslot hprod.1 hk
      · cases hk

/-- The call is decided on the outstanding frames, whatever the indices have wrapped to. -/
theorem Inv.decides (h : Inv s) {frame : CanFrame} {head : BitVec (w + 7)} (hp : s.q.producer = .loadTail frame head)
    (next : CanFrame) :
    ((s.produce next).q.producer = .drop ∧ (s.produce next).accepted = s.accepted ∧
        (8 < frame.len ∨ s.accepted.length = s.popped.length + kDepth)) ∨
      ((s.produce next).accepted = s.accepted ++ [frame] ∧
        ¬ (8 < frame.len ∨ s.accepted.length = s.popped.length + kDepth)) := by
  have hprod := h.producer
  rw [hp] at hprod
  obtain ⟨hlength, hhead⟩ := hprod
  have hfull : (64 : BitVec (w + 7)) ≤ head - s.q.tail ↔ s.accepted.length = s.popped.length + kDepth := by
    rw [hhead, h.tail, full_iff h.unread h.room, hlength]
  unfold Traced.produce
  rw [hp]
  dsimp only
  split
  · rename_i hrefused
    rw [hfull] at hrefused
    exact Or.inl ⟨rfl, rfl, hrefused⟩
  · rename_i hok
    rw [hfull] at hok
    exact Or.inr ⟨rfl, hok⟩

/-- The consumer finds the queue empty exactly when it is. -/
theorem Inv.empty (h : Inv s) {tail : BitVec (w + 7)} (hc : s.q.consumer = .loadHead tail) :
    s.consume.q.consumer = .idle ↔ s.popped.length = s.published := by
  have hcons := h.consumer
  rw [hc] at hcons
  have htail : tail = s.q.head ↔ s.popped.length = s.published := by
    rw [show tail = BitVec.ofNat (w + 7) s.popped.length from hcons, h.head, empty_iff h.unread h.room]
  unfold Traced.consume
  rw [hc, ← htail]
  dsimp only
  split
  · rename_i heq
    constructor
    · intro _
      exact heq
    · intro _
      rfl
  · rename_i hne
    constructor
    · intro hidle
      cases hidle
    · intro heq
      exact absurd heq hne

theorem Inv.fifo (h : Inv s) : s.popped = (s.accepted.take s.popped.length).map received := by
  have hle : s.popped.length ≤ s.accepted.length := h.unread.trans h.accepted
  apply List.ext_getElem (by simp [hle])
  intro i hi hi'
  have hget := h.popped i hi
  rw [List.getD_eq_getElem _ _ hi] at hget
  rw [hget, List.getElem_map, List.getElem_take]
  unfold Traced.item
  rw [List.getD_eq_getElem _ _ (by omega)]

theorem Inv.lossless (h : Inv s) : Lossless s where
  fifo := h.fifo
  content f hf := by
    obtain ⟨i, hi, rfl⟩ := List.getElem_of_mem hf
    have hshort := h.short i hi
    unfold Traced.item at hshort
    rw [List.getD_eq_getElem _ _ hi] at hshort
    exact ⟨rfl, rfl, rfl, received_byte _ hshort⟩
  outstanding := ⟨h.unread.trans h.accepted, h.producer.length_le h.room⟩
  disjoint k hk i hlo hhi := by
    obtain ⟨rfl, hroom⟩ := h.writing hk
    intro heq
    have := Ring.slot_inj (Nat.le_of_lt hhi) (by omega) heq
    omega
  decides _ _ hp next := h.decides hp next
  empty _ hc := h.empty hc
  dropped := h.dropped
  calls := h.calls

end Lossless

/-- The invariant holds at every step of every interleaving. -/
theorem inv_run (ρ : ℕ → InboxEvent) (n : ℕ) : Inv (Trace.stateAt Traced.step ({} : Traced w) ρ n) := by
  apply Trace.always inv_init
  intro s e h
  cases e with
  | produce frame => exact h.produce frame
  | consume => exact h.consume

/-- **The inbox is a lossless bounded FIFO**, at every step of every interleaving and past any wrap of the indices. -/
theorem inbox_lossless (ρ : ℕ → InboxEvent) (n : ℕ) : Lossless (Trace.stateAt Traced.step ({} : Traced w) ρ n) :=
  (inv_run ρ n).lossless

end Lhre.Longhorn
