import Lhre.Drivers.System
import Lhre.Drivers.Math

/-!
# `Drivers.RxSlot` — CAN frames and the receive slots

`lhal::CanFrame` (`drivers/lhal/include/lhal/can.hpp`) and the template `longhorn::RxSlot`
(`drivers/longhorn/include/longhorn/can_inbox.hpp`): the latest copy of one received message with its
arrival time. What a slot holds after a batch of frames is settled by the last frame of the batch it
accepts (`RxSlot.drain_spec`), which is all the freshness arguments use.
-/

namespace Lhre

namespace Lhal

/-- `lhal::CanFrame`. -/
structure CanFrame where
  id : U32 := 0
  extendedId : Bool := false
  fd : Bool := false
  bitrateSwitch : Bool := false
  len : U8 := 0
  data : Vector U8 64 := Vector.replicate 64 0
deriving DecidableEq

/-- The byte of a frame's payload at an index; the generated code reads inside the payload only. -/
def CanFrame.byte (f : CanFrame) (i : ℕ) : U8 := f.data.toList.getD i 0

/-- A payload given by its first bytes, zero past them. -/
def payload (l : List U8) : Vector U8 64 :=
  ⟨(l.take 64 ++ List.replicate (64 - (l.take 64).length) 0).toArray, by
    have : (l.take 64).length ≤ 64 := List.length_take_le 64 l
    simp only [List.size_toArray, List.length_append, List.length_replicate]
    omega⟩

end Lhal

namespace Longhorn

open Lhal

/-- The constants and the decoder the generator emits for a received message of quantity 1. -/
class Message (M : Type) where
  kFrameId : U32
  kDlc : U8
  /-- 0 = aperiodic -/
  kFrequencyHz : ℚ
  /-- the value-initialised struct -/
  init : M
  /-- `Unpack` into a fresh struct, from the payload bytes -/
  unpack : (ℕ → U8) → M

variable {M : Type} [Message M]

/-- `Message::Matches`. -/
def Message.isMatch (M : Type) [Message M] (frameId : U32) : Bool := frameId == Message.kFrameId M

/-- `Message::FromFrame`. -/
def Message.fromFrame (f : CanFrame) : M := Message.unpack f.byte

/-- The latest copy of one received message with its arrival time. -/
structure RxSlot (M : Type) where
  msg : M
  lastMs : U32 := 0
  count : U32 := 0
deriving DecidableEq

/-- A slot before anything arrived. -/
def RxSlot.new (M : Type) [Message M] : RxSlot M := { msg := Message.init }

/-- `RxSlot::kTimeoutMs`: twice the period, rounded up; 0 for aperiodic messages. -/
def kTimeoutMs (M : Type) [Message M] : U32 :=
  let hz := Message.kFrequencyHz M
  if 0 < hz then BitVec.ofInt 32 (truncToInt (2000 / hz + 0.999)) else 0

/-- `RxSlot::seen`. -/
def RxSlot.seen (s : RxSlot M) : Bool := s.count != 0

/-- `RxSlot::Fresh`. -/
def RxSlot.fresh (s : RxSlot M) (now : U32) : Bool :=
  s.seen && kTimeoutMs M != 0 && !elapsedMs now s.lastMs (kTimeoutMs M)

/-- The frames `TryDecode` takes: standard id, this message's id, long enough. -/
def accepts (M : Type) [Message M] (f : CanFrame) : Bool :=
  !(f.extendedId || !Message.isMatch M f.id || decide (f.len < Message.kDlc M))

/-- `RxSlot::TryDecode`: the slot after the frame, and whether it was taken. -/
def RxSlot.tryDecode (s : RxSlot M) (f : CanFrame) (now : U32) : RxSlot M × Bool :=
  if accepts M f then ({ msg := Message.fromFrame f, lastMs := now, count := s.count + 1 }, true)
  else (s, false)

/-- The slot after all frames of a batch that arrived by `now`. -/
def RxSlot.drain (s : RxSlot M) (frames : List CanFrame) (now : U32) : RxSlot M :=
  frames.foldl (fun s f => (s.tryDecode f now).1) s

/-- The last frame of a batch that the message takes. -/
def lastAccepted (M : Type) [Message M] (frames : List CanFrame) : Option CanFrame :=
  (frames.filter (accepts M)).getLast?

@[simp] theorem RxSlot.drain_nil (s : RxSlot M) (now : U32) : s.drain [] now = s := rfl

@[simp] theorem RxSlot.drain_cons (s : RxSlot M) (f : CanFrame) (frames : List CanFrame) (now : U32) :
    s.drain (f :: frames) now = (s.tryDecode f now).1.drain frames now := rfl

theorem RxSlot.drain_append (s : RxSlot M) (l₁ l₂ : List CanFrame) (now : U32) :
    s.drain (l₁ ++ l₂) now = (s.drain l₁ now).drain l₂ now := List.foldl_append

theorem RxSlot.tryDecode_of_accepts {s : RxSlot M} {f : CanFrame} {now : U32} (h : accepts M f = true) :
    (s.tryDecode f now).1 = { msg := Message.fromFrame f, lastMs := now, count := s.count + 1 } := by
  unfold RxSlot.tryDecode
  rw [if_pos h]

theorem RxSlot.tryDecode_of_not {s : RxSlot M} {f : CanFrame} {now : U32} (h : accepts M f = false) :
    (s.tryDecode f now).1 = s := by
  unfold RxSlot.tryDecode
  rw [if_neg (by simp [h])]

theorem lastAccepted_append_singleton (l : List CanFrame) (f : CanFrame) :
    lastAccepted M (l ++ [f]) = if accepts M f then some f else lastAccepted M l := by
  unfold lastAccepted
  rw [List.filter_append, List.filter_singleton]
  cases accepts M f <;> simp

/-- The last accepted frame of a batch is one of its frames and is accepted. -/
theorem lastAccepted_mem {l : List CanFrame} {f : CanFrame} (h : lastAccepted M l = some f) :
    f ∈ l ∧ accepts M f = true :=
  List.mem_filter.mp (List.mem_of_getLast? h)

/-- **What a batch leaves in a slot.** With no accepted frame the slot is unchanged; otherwise it holds
    the decoded last accepted frame, stamped with the batch's time. -/
theorem RxSlot.drain_spec (s : RxSlot M) (frames : List CanFrame) (now : U32) :
    (lastAccepted M frames = none ∧ s.drain frames now = s) ∨
    ∃ f, lastAccepted M frames = some f ∧ (s.drain frames now).msg = Message.fromFrame f ∧
      (s.drain frames now).lastMs = now := by
  induction frames using List.reverseRecOn with
  | nil => exact Or.inl ⟨rfl, rfl⟩
  | append_singleton l f ih =>
      rw [lastAccepted_append_singleton, RxSlot.drain_append]
      cases hf : accepts M f with
      | true =>
          refine Or.inr ⟨f, rfl, ?_, ?_⟩ <;>
            rw [RxSlot.drain_cons, RxSlot.drain_nil, RxSlot.tryDecode_of_accepts hf]
      | false =>
          rw [RxSlot.drain_cons, RxSlot.drain_nil, RxSlot.tryDecode_of_not hf]
          exact ih

/-- A fresh slot has been filled. -/
theorem RxSlot.count_ne_of_fresh {s : RxSlot M} {now : U32} (h : s.fresh now = true) : s.count ≠ 0 := by
  intro hc
  simp [RxSlot.fresh, RxSlot.seen, hc] at h

/-- A fresh slot is younger than its timeout. -/
theorem RxSlot.not_elapsed_of_fresh {s : RxSlot M} {now : U32} (h : s.fresh now = true) :
    elapsedMs now s.lastMs (kTimeoutMs M) = false := by
  simp only [RxSlot.fresh, Bool.and_eq_true, Bool.not_eq_true'] at h
  exact h.2

/-- A slot is only changed by a frame of its message. -/
theorem accepts_iff {f : CanFrame} : accepts M f = true ↔
    f.extendedId = false ∧ f.id = Message.kFrameId M ∧ Message.kDlc M ≤ f.len := by
  simp only [accepts, Message.isMatch, Bool.not_eq_true', Bool.or_eq_false_iff, Bool.not_eq_false', beq_iff_eq,
    decide_eq_false_iff_not, BitVec.not_lt, and_assoc]

/-! ## A slot fed every batch of a stream -/

/-- A slot drained at every position of a stream, position `n` when the clock reads `now n`. -/
structure RxSlot.Sampled (S : ℕ → RxSlot M) (frames : ℕ → List CanFrame) (now : ℕ → U32) : Prop where
  empty : S 0 = .new M
  step : ∀ n, S (n + 1) = (S n).drain (frames n) (now n)

/-- Frame `f`, received at position `k`, is the last of its message up to position `n`. -/
def LastHeard (M : Type) [Message M] (frames : ℕ → List CanFrame) (n k : ℕ) (f : CanFrame) : Prop :=
  k ≤ n ∧ lastAccepted M (frames k) = some f ∧ ∀ j, k < j → j ≤ n → lastAccepted M (frames j) = none

namespace RxSlot.Sampled

variable {S : ℕ → RxSlot M} {frames : ℕ → List CanFrame} {now : ℕ → U32}

/-- **A slot holds the last frame of its message.** After position `n` a slot is as it was at the start, or
    holds the decoded last frame of its message, stamped with the time that frame was drained. -/
theorem last (h : Sampled S frames now) (n : ℕ) :
    S (n + 1) = .new M ∨ ∃ k f, LastHeard M frames n k f ∧ (S (n + 1)).msg = Message.fromFrame f ∧
      (S (n + 1)).lastMs = now k := by
  induction n with
  | zero =>
      rw [h.step, h.empty]
      rcases RxSlot.drain_spec (.new M) (frames 0) (now 0) with ⟨-, hsame⟩ | ⟨f, hlast, hmsg, hms⟩
      · left
        exact hsame
      · right
        refine ⟨0, f, ⟨Nat.le_refl 0, hlast, ?_⟩, hmsg, hms⟩
        intro j hj hj'
        omega
  | succ n ih =>
      rw [h.step (n + 1)]
      rcases RxSlot.drain_spec (S (n + 1)) (frames (n + 1)) (now (n + 1)) with
        ⟨hnone, hsame⟩ | ⟨f, hlast, hmsg, hms⟩
      · rw [hsame]
        rcases ih with hnew | ⟨k, f, ⟨hk, hlast, hsince⟩, hmsg, hms⟩
        · left
          exact hnew
        · right
          refine ⟨k, f, ⟨Nat.le_succ_of_le hk, hlast, ?_⟩, hmsg, hms⟩
          intro j hkj hj
          rcases Nat.lt_or_eq_of_le hj with hlt | rfl
          · exact hsince j hkj (Nat.le_of_lt_succ hlt)
          · exact hnone
      · right
        refine ⟨n + 1, f, ⟨Nat.le_refl _, hlast, ?_⟩, hmsg, hms⟩
        intro j hj hj'
        omega

/-- A fresh slot holds the last frame of its message. -/
theorem last_of_fresh (h : Sampled S frames now) {n : ℕ} {clock : U32} (hfresh : (S (n + 1)).fresh clock = true) :
    ∃ k f, LastHeard M frames n k f ∧ (S (n + 1)).msg = Message.fromFrame f ∧ (S (n + 1)).lastMs = now k := by
  rcases h.last n with hnew | hlast
  · exact absurd (by rw [hnew]; rfl) (RxSlot.count_ne_of_fresh hfresh)
  · exact hlast

/-- **A fresh slot was filled within its timeout**, when position `n` is at the true time `t n`. -/
theorem heard_of_fresh {t : ℕ → ℕ} (h : Sampled S frames (fun n => BitVec.ofNat 32 (t n))) (hmono : Monotone t)
    {n : ℕ} (hspan : t n - t 0 < 2 ^ 32) (hfresh : (S (n + 1)).fresh (BitVec.ofNat 32 (t n)) = true) :
    ∃ k f, LastHeard M frames n k f ∧ (S (n + 1)).msg = Message.fromFrame f ∧
      t n < t k + (kTimeoutMs M).toNat := by
  obtain ⟨k, f, hlast, hmsg, hms⟩ := h.last_of_fresh hfresh
  refine ⟨k, f, hlast, hmsg, ?_⟩
  have hk : t k ≤ t n := hmono hlast.1
  have h0 : t 0 ≤ t k := hmono (Nat.zero_le k)
  have hage := RxSlot.not_elapsed_of_fresh hfresh
  rw [hms, elapsedMs_ofNat hk (by omega), decide_eq_false_iff_not] at hage
  omega

end RxSlot.Sampled

end Longhorn
end Lhre
