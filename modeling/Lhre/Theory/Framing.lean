import Mathlib.Tactic

/-!
# `Theory.Framing` — messages on a stream

A framing puts messages on a stream one behind the other, so that the next one can be taken off it. What is read of a stream that was
cut anywhere is the messages that are whole.

## Contents
- **Framings.** `Framing`, `Framing.stream`.
- **Reading.** `Framing.readWith`, `Framing.read`, `readWith_whole`, `read_cut`, `read_stream`.
- **Two framings.** `lengthPrefixed`, `fixedSize`.
-/

variable {β M : Type*}

/-! ## Framings -/

/-- A way to put a message on a stream, and to take the next one off it; a part of a message is not taken. -/
structure Framing (β M : Type*) where
  valid : M → Prop
  encode : M → List β
  next : List β → Option (M × List β)
  next_nil : next [] = none
  next_encode : ∀ m rest, valid m → next (encode m ++ rest) = some (m, rest)
  next_part : ∀ m part, valid m → part <+: encode m → part ≠ encode m → next part = none
  encode_pos : ∀ m, valid m → 0 < (encode m).length

namespace Framing

variable (F : Framing β M)

/-- Some messages on a stream. -/
def stream (ms : List M) : List β := ms.flatMap F.encode

@[simp] theorem stream_nil : F.stream [] = [] := rfl

@[simp] theorem stream_cons (m : M) (ms : List M) : F.stream (m :: ms) = F.encode m ++ F.stream ms := rfl

@[simp] theorem stream_append (ms ms' : List M) : F.stream (ms ++ ms') = F.stream ms ++ F.stream ms' := List.flatMap_append

/-! ## Reading -/

/-- The messages of a stream, at most so many. -/
def readWith : ℕ → List β → List M
  | 0, _ => []
  | fuel + 1, bytes =>
      match F.next bytes with
      | none => []
      | some (m, rest) => m :: readWith fuel rest

/-- The messages of a stream: there are no more than bytes. -/
def read (bytes : List β) : List M := F.readWith bytes.length bytes

variable {F} {ms : List M}

/-- A part of some messages is whole messages and a part of the next one. -/
theorem part_cases {m : M} {rest part : List β} (hpart : part <+: F.encode m ++ rest) :
    (part <+: F.encode m ∧ part ≠ F.encode m) ∨ ∃ tail, part = F.encode m ++ tail ∧ tail <+: rest := by
  by_cases hlen : part.length < (F.encode m).length
  · left
    refine ⟨List.prefix_of_prefix_length_le hpart (List.prefix_append _ _) hlen.le, ?_⟩
    rintro rfl
    exact lt_irrefl _ hlen
  · right
    obtain ⟨tail, rfl⟩ := List.prefix_of_prefix_length_le (List.prefix_append (F.encode m) rest) hpart (not_lt.mp hlen)
    exact ⟨tail, rfl, (List.prefix_append_right_inj _).mp hpart⟩

/-- **What is read of a part of a stream** is the messages that are whole in it. -/
theorem readWith_whole (hvalid : ∀ m ∈ ms, F.valid m) {part : List β} (hpart : part <+: F.stream ms) {fuel : ℕ}
    (hfuel : part.length ≤ fuel) :
    ∃ k ≤ ms.length, F.readWith fuel part = ms.take k ∧ F.stream (ms.take k) <+: part ∧
      ∀ j ≤ ms.length, F.stream (ms.take j) <+: part → j ≤ k := by
  induction ms generalizing part fuel with
  | nil =>
      have hnil : part = [] := List.prefix_nil.mp hpart
      refine ⟨0, le_rfl, ?_, by simp, fun j hj _ => hj⟩
      cases fuel with
      | zero => rfl
      | succ fuel =>
          rw [hnil, readWith, F.next_nil]
          rfl
  | cons m ms ih =>
      have hm := hvalid m List.mem_cons_self
      rcases part_cases hpart with ⟨hshort, hne⟩ | ⟨tail, rfl, htail⟩
      · -- the first message is not whole
        refine ⟨0, Nat.zero_le _, ?_, by simp, fun j _ hj => ?_⟩
        · cases fuel with
          | zero => rfl
          | succ fuel =>
              rw [readWith, F.next_part m part hm hshort hne]
              rfl
        · cases j with
          | zero => exact le_rfl
          | succ j =>
              rw [List.take_succ_cons, stream_cons] at hj
              have hfirst : F.encode m <+: part := (List.prefix_append _ _).trans hj
              exact absurd (hshort.eq_of_length_le hfirst.length_le) hne
      · have hpos := F.encode_pos m hm
        rw [List.length_append] at hfuel
        obtain ⟨fuel, rfl⟩ : ∃ n, fuel = n + 1 := ⟨fuel - 1, by omega⟩
        obtain ⟨k, hk, hread, hwhole, hmost⟩ :=
          ih (fun m hm => hvalid m (List.mem_cons_of_mem _ hm)) htail (by omega : tail.length ≤ fuel)
        refine ⟨k + 1, Nat.succ_le_succ hk, ?_, ?_, fun j hj hpre => ?_⟩
        · rw [readWith, F.next_encode m tail hm]
          show m :: F.readWith fuel tail = _
          rw [hread, List.take_succ_cons]
        · rw [List.take_succ_cons, stream_cons]
          exact (List.prefix_append_right_inj _).mpr hwhole
        · cases j with
          | zero => exact Nat.zero_le _
          | succ j =>
              rw [List.take_succ_cons, stream_cons] at hpre
              have hj' : j ≤ k := hmost j (Nat.le_of_succ_le_succ hj) ((List.prefix_append_right_inj _).mp hpre)
              omega

/-- **Of a stream that was cut anywhere** the messages that are whole are read, and nothing else. -/
theorem read_cut (hvalid : ∀ m ∈ ms, F.valid m) {part : List β} (hpart : part <+: F.stream ms) :
    ∃ k ≤ ms.length, F.read part = ms.take k ∧ ∀ j ≤ ms.length, F.stream (ms.take j) <+: part → j ≤ k := by
  obtain ⟨k, hk, hread, -, hmost⟩ := readWith_whole hvalid hpart le_rfl
  exact ⟨k, hk, hread, hmost⟩

/-- **A whole stream** is read back. -/
theorem read_stream (hvalid : ∀ m ∈ ms, F.valid m) : F.read (F.stream ms) = ms := by
  obtain ⟨k, hk, hread, hmost⟩ := read_cut hvalid (List.prefix_refl (F.stream ms))
  have hall : ms.length ≤ k := hmost ms.length le_rfl (by rw [List.take_length])
  rw [hread, List.take_of_length_le hall]

/-! ## Two framings -/

/-- Each message after a header of `w` entries that says how long it is. -/
def lengthPrefixed (w limit : ℕ) (header : ℕ → List β) (size : List β → ℕ) (hw : 0 < w) (hheader : ∀ n, (header n).length = w)
    (hsize : ∀ n < limit, size (header n) = n) : Framing β (List β) where
  valid m := m.length < limit
  encode m := header m.length ++ m
  next bytes :=
    if bytes.length < w then none
    else
      let n := size (bytes.take w)
      let rest := bytes.drop w
      if rest.length < n then none else some (rest.take n, rest.drop n)
  next_nil := if_pos hw
  next_encode m rest hm := by
    have hlen : ¬ (header m.length ++ m ++ rest).length < w := by
      rw [List.length_append, List.length_append, hheader]
      omega
    have htake : (header m.length ++ m ++ rest).take w = header m.length := by
      rw [List.append_assoc, ← hheader m.length, List.take_left]
    have hdrop : (header m.length ++ m ++ rest).drop w = m ++ rest := by
      rw [List.append_assoc, ← hheader m.length, List.drop_left]
    show (if _ then none else _) = _
    rw [if_neg hlen]
    simp only [htake, hdrop, hsize m.length hm]
    rw [if_neg (by rw [List.length_append]; omega), List.take_left, List.drop_left]
  next_part m part hm hpart hne := by
    by_cases hlen : part.length < w
    · exact if_pos hlen
    · -- the header is whole, the message is not
      have hlt : part.length < w + m.length := by
        have hle := hpart.length_le
        rw [List.length_append, hheader] at hle
        rcases hle.lt_or_eq with hlt | heq
        · exact hlt
        · refine absurd (hpart.eq_of_length ?_) hne
          rw [heq, List.length_append, hheader]
      have htake : part.take w = header m.length := by
        obtain ⟨rest, hrest⟩ := hpart
        have h : (part ++ rest).take w = header m.length := by
          rw [hrest, ← hheader m.length, List.take_left]
        rwa [List.take_append_of_le_length (not_lt.mp hlen)] at h
      show (if _ then none else _) = _
      rw [if_neg hlen]
      simp only [htake, hsize m.length hm]
      exact if_pos (by rw [List.length_drop]; omega)
  encode_pos m _ := by
    rw [List.length_append, hheader]
    omega

/-- Messages of one size. -/
def fixedSize (n : ℕ) (hn : 0 < n) : Framing β (List β) where
  valid m := m.length = n
  encode m := m
  next bytes := if bytes.length < n then none else some (bytes.take n, bytes.drop n)
  next_nil := if_pos hn
  next_encode m rest hm := by
    subst hm
    rw [if_neg (by rw [List.length_append]; omega), List.take_left, List.drop_left]
  next_part m part hm hpart hne := by
    refine if_pos (lt_of_le_of_ne (hm ▸ hpart.length_le) fun heq => hne (hpart.eq_of_length ?_))
    rw [heq, hm]
  encode_pos m hm := hm ▸ hn

end Framing
