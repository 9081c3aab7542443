import Lhre.Theory.Journal
import Lhre.Theory.Trace
import Lhre.Drivers.System

/-!
# `Vcu.FaultStore` — the brake latch journal in flash

`LoadFaultLatch` and `SaveFaultLatch` (`boards/VCU/Board/fault_store.cpp`): the latch value is kept in one 2 KB page
as a journal of records, each a value and its complement, and the page is erased only when it is full.

Each flash operation either happens or leaves the page as it was; which, is the `FlashOutcome` of the call.

## Contents
- **Records.** `Valid`, `record` and the journal format `faultFormat`.
- **The two functions.** `loadFaultLatch`; `saveOps`, the flash operations of one save in order, and
  `saveFaultLatch`, which runs them. `interruptedSave` runs only the first `k`.
- **One call.** `InUse`, the pages that calls leave; `Succeeds` and `Wipes`, and what a load finds after each.
- **Runs of calls.** `pageAfter` and `load_pageAfter`; `load_pageAfter_alternating` for runs that only save two
  values.
-/

namespace Lhre.Vcu

open Journal

/-! ## Records -/

/-- `kRecords`: the 2 KB page in double words. -/
def kRecords : ℕ := 2048 / 8
/-- `kErased`. -/
def kErased : U64 := ~~~0

/-- `Valid`: the high word is the complement of the low one. -/
def Valid (r : U64) : Bool := r.setWidth 32 == ~~~(r >>> 32).setWidth 32

/-- The double word `SaveFaultLatch` programs for a value. -/
def record (value : U32) : U64 := ((~~~value).setWidth 64 <<< 32) ||| value.setWidth 64

theorem record_low (value : U32) : (record value).setWidth 32 = value := by
  unfold record
  ext i hi
  simp

theorem record_high (value : U32) : (record value >>> 32).setWidth 32 = ~~~value := by
  unfold record
  ext i hi
  have : 32 + i < 64 ∧ i < 64 := by omega
  simp [hi, this]

theorem valid_record (value : U32) : Valid (record value) = true := by
  unfold Valid
  rw [record_low, record_high, BitVec.not_not]
  exact beq_self_eq_true value

/-- No record looks like an erased cell: its two halves would both be all ones. -/
theorem record_ne_erased (value : U32) : record value ≠ kErased := by
  intro h
  have hlow := record_low value
  have hhigh := record_high value
  rw [h] at hlow hhigh
  have hones : value = ~~~0#32 := by
    rw [← hlow]
    decide
  subst hones
  revert hhigh
  decide

/-- The journal format of the page. -/
def faultFormat : Format U64 U32 where
  erased := kErased
  decode r := if Valid r then some (r.setWidth 32) else none
  encode := record
  decode_encode value := by rw [if_pos (valid_record value), record_low]
  encode_ne_erased := record_ne_erased

/-- The page as the erase leaves it. -/
def erasedPage : List U64 := faultFormat.blank kRecords

/-! ## The two functions -/

/-- Which of the flash operations of one call happen. -/
structure FlashOutcome where
  eraseOk : Bool := true
  programOk : Bool := true
deriving DecidableEq

/-- The flash does everything it is asked. -/
def FlashOutcome.Works (flash : FlashOutcome) : Prop := flash.eraseOk = true ∧ flash.programOk = true

instance (flash : FlashOutcome) : Decidable flash.Works := inferInstanceAs (Decidable (_ ∧ _))

/-- `LoadFaultLatch`, on a part with or without dual-bank flash. -/
def loadFaultLatch (dualBank : Bool) (page : List U64) : U32 := if !dualBank then 0 else faultFormat.load 0 page

/-- A call of the flash driver by `SaveFaultLatch`. -/
inductive FlashOp
  | unlock
  | clearErrors
  | erase
  | program (slot : ℕ) (value : U32)
  | lock
deriving DecidableEq

/-- The page after a call of the flash driver. -/
def FlashOp.run (flash : FlashOutcome) (page : List U64) : FlashOp → List U64
  | .unlock => page
  | .clearErrors => page
  | .erase => if flash.eraseOk then erasedPage else page
  | .program slot value => if flash.programOk then faultFormat.program page slot value else page
  | .lock => page

/-- The calls of the flash driver `SaveFaultLatch` makes, in order. A failed erase skips the write. -/
def saveOps (dualBank : Bool) (flash : FlashOutcome) (value : U32) (page : List U64) : List FlashOp :=
  if !dualBank || loadFaultLatch dualBank page == value then []
  else
    let slot := faultFormat.firstErased page
    if slot == kRecords then
      if flash.eraseOk then [.unlock, .clearErrors, .erase, .program 0 value, .lock]
      else [.unlock, .clearErrors, .erase, .lock]
    else [.unlock, .clearErrors, .program slot value, .lock]

/-- `SaveFaultLatch`. -/
def saveFaultLatch (dualBank : Bool) (flash : FlashOutcome) (value : U32) (page : List U64) : List U64 :=
  (saveOps dualBank flash value page).foldl (FlashOp.run flash) page

/-- `SaveFaultLatch` when power is lost after its first `k` calls of the flash driver. -/
def interruptedSave (k : ℕ) (dualBank : Bool) (flash : FlashOutcome) (value : U32) (page : List U64) : List U64 :=
  ((saveOps dualBank flash value page).take k).foldl (FlashOp.run flash) page

/-! ## One call -/

/-- A page that is records and then erased cells, `kRecords` in all. -/
def InUse (page : List U64) : Prop := ∃ w free, faultFormat.Written page w free ∧ w.length + free = kRecords

theorem written_erased : faultFormat.Written erasedPage [] kRecords := Format.written_blank kRecords

theorem inUse_erased : InUse erasedPage := ⟨[], kRecords, written_erased, by simp⟩

@[simp] theorem loadFaultLatch_erased (dualBank : Bool) : loadFaultLatch dualBank erasedPage = 0 := by
  unfold loadFaultLatch
  cases dualBank with
  | false => rfl
  | true => exact Format.load_blank 0 kRecords

/-- The last cell of the page is taken. -/
def Full (page : List U64) : Prop := faultFormat.firstErased page = kRecords

instance (page : List U64) : Decidable (Full page) := inferInstanceAs (Decidable (_ = _))

/-- A page that is not full has a cell for the next record. -/
theorem InUse.slot {page : List U64} (h : InUse page) (hfull : ¬ Full page) :
    ∃ w free, faultFormat.Written page w (free + 1) ∧ w.length + (free + 1) = kRecords := by
  obtain ⟨w, free, hw, hlen⟩ := h
  cases free with
  | zero =>
      refine absurd ?_ hfull
      unfold Full
      rw [hw.firstErased_eq]
      exact hlen
  | succ free => exact ⟨w, free, hw, hlen⟩

/-- The next record, written to the first erased cell. -/
def append (page : List U64) (value : U32) : List U64 :=
  faultFormat.program page (faultFormat.firstErased page) value

theorem InUse.append {page : List U64} (h : InUse page) (hfull : ¬ Full page) (value : U32) :
    InUse (append page value) := by
  obtain ⟨w, free, hw, hlen⟩ := h.slot hfull
  unfold Vcu.append
  rw [hw.firstErased_eq]
  refine ⟨w ++ [record value], free, hw.program_eq value, ?_⟩
  rw [List.length_append, List.length_singleton, ← hlen]
  omega

theorem load_append {page : List U64} (h : InUse page) (hfull : ¬ Full page) (value : U32) :
    loadFaultLatch true (append page value) = value := by
  obtain ⟨w, free, hw, -⟩ := h.slot hfull
  unfold Vcu.append
  rw [hw.firstErased_eq]
  exact hw.load_program 0 value

theorem not_full_erased : ¬ Full erasedPage := by
  unfold Full
  rw [written_erased.firstErased_eq]
  decide

theorem InUse.firstErased_append {page : List U64} (h : InUse page) (hfull : ¬ Full page) (value : U32) :
    faultFormat.firstErased (Vcu.append page value) = faultFormat.firstErased page + 1 := by
  obtain ⟨w, free, hw, -⟩ := h.slot hfull
  unfold Vcu.append
  rw [hw.firstErased_eq, (hw.program_eq value).firstErased_eq, List.length_append, List.length_singleton]

/-- **What one save can do.** Nothing; append a record; or erase a full page and then write the record or not. -/
theorem saveFaultLatch_eq (dualBank : Bool) (flash : FlashOutcome) (value : U32) (page : List U64) :
    saveFaultLatch dualBank flash value page =
      if dualBank = false ∨ loadFaultLatch dualBank page = value then page
      else if Full page then
        if flash.eraseOk then (if flash.programOk then append erasedPage value else erasedPage) else page
      else if flash.programOk then append page value else page := by
  have hzero : faultFormat.firstErased erasedPage = 0 := written_erased.firstErased_eq
  unfold saveFaultLatch saveOps Full
  by_cases hskip : dualBank = false ∨ loadFaultLatch dualBank page = value
  · have : (!dualBank || loadFaultLatch dualBank page == value) = true := by simpa using hskip
    rw [if_pos hskip, if_pos this]
    rfl
  · have : ¬ (!dualBank || loadFaultLatch dualBank page == value) = true := by simpa using hskip
    rw [if_neg hskip, if_neg this]
    by_cases hfull : faultFormat.firstErased page = kRecords
    · cases he : flash.eraseOk <;> simp [hfull, he, FlashOp.run, append, hzero]
    · simp [hfull, FlashOp.run, append]

/-- A save succeeds when its value is in the page already, or its record is written, after an erase if one is
    needed. -/
def Succeeds (dualBank : Bool) (flash : FlashOutcome) (value : U32) (page : List U64) : Prop :=
  dualBank = true ∧ (loadFaultLatch dualBank page = value ∨
    flash.programOk = true ∧ (Full page → flash.eraseOk = true))

/-- A save wipes the page when it erases it and then fails to write its record. -/
def Wipes (dualBank : Bool) (flash : FlashOutcome) (value : U32) (page : List U64) : Prop :=
  dualBank = true ∧ loadFaultLatch dualBank page ≠ value ∧ Full page ∧ flash.eraseOk = true ∧
    flash.programOk = false

theorem InUse.save {page : List U64} (h : InUse page) (dualBank : Bool) (flash : FlashOutcome) (value : U32) :
    InUse (saveFaultLatch dualBank flash value page) := by
  rw [saveFaultLatch_eq]
  split_ifs with hskip hfull he hp hp
  · exact h
  · exact inUse_erased.append not_full_erased value
  · exact inUse_erased
  · exact h
  · exact h.append hfull value
  · exact h

section OneCall

variable {dualBank : Bool} {flash : FlashOutcome} {value : U32} {page : List U64}

/-- **A successful save is what the next load finds.** -/
theorem load_of_succeeds (h : InUse page) (hs : Succeeds dualBank flash value page) :
    loadFaultLatch dualBank (saveFaultLatch dualBank flash value page) = value := by
  obtain ⟨rfl, hs⟩ := hs
  rw [saveFaultLatch_eq]
  by_cases hsame : loadFaultLatch true page = value
  · rw [if_pos (Or.inr hsame)]
    exact hsame
  · obtain ⟨hp, he⟩ := hs.resolve_left hsame
    rw [if_neg (by simpa using hsame)]
    by_cases hfull : Full page
    · rw [if_pos hfull, if_pos (he hfull), if_pos hp]
      exact load_append inUse_erased not_full_erased value
    · rw [if_neg hfull, if_pos hp]
      exact load_append h hfull value

/-- After a wipe the next load finds nothing. -/
theorem load_of_wipes (hw : Wipes dualBank flash value page) :
    loadFaultLatch dualBank (saveFaultLatch dualBank flash value page) = 0 := by
  obtain ⟨rfl, hne, hfull, he, hp⟩ := hw
  rw [saveFaultLatch_eq, if_neg (by simpa using hne), if_pos hfull, if_pos he, if_neg (by simp [hp]),
    loadFaultLatch_erased]

/-- A save that neither succeeds nor wipes leaves what the next load finds. -/
theorem load_of_fails (hs : ¬ Succeeds dualBank flash value page) (hw : ¬ Wipes dualBank flash value page) :
    loadFaultLatch dualBank (saveFaultLatch dualBank flash value page) = loadFaultLatch dualBank page := by
  rw [saveFaultLatch_eq]
  cases dualBank with
  | false => rw [if_pos (Or.inl rfl)]
  | true =>
      have hne : loadFaultLatch true page ≠ value := by
        intro heq
        exact hs ⟨rfl, Or.inl heq⟩
      rw [if_neg (by simpa using hne)]
      by_cases hfull : Full page
      · rw [if_pos hfull]
        by_cases he : flash.eraseOk = true
        · have hp : flash.programOk = true := by
            by_contra hp
            exact hw ⟨rfl, hne, hfull, he, by simpa using hp⟩
          exact absurd ⟨rfl, Or.inr ⟨hp, fun _ => he⟩⟩ hs
        · rw [if_neg he]
      · have hp : ¬ flash.programOk = true := by
          intro hp
          exact hs ⟨rfl, Or.inr ⟨hp, fun hf => absurd hf hfull⟩⟩
        rw [if_neg hfull, if_neg hp]

/-- The last call of a save, to lock the flash, leaves the page alone, made or not. -/
theorem run_lock (k : ℕ) : ([FlashOp.lock].take k).foldl (FlashOp.run flash) page = page := by
  cases k with
  | zero => rfl
  | succ k =>
      rw [List.take_succ_cons, List.take_nil]
      rfl

/-- **An interrupted save is a save some of whose flash operations failed.** -/
theorem interruptedSave_eq (k : ℕ) (dualBank : Bool) (flash : FlashOutcome) (value : U32) (page : List U64) :
    ∃ flash' : FlashOutcome, interruptedSave k dualBank flash value page =
      saveFaultLatch dualBank flash' value page := by
  by_cases hskip : (!dualBank || loadFaultLatch dualBank page == value) = true
  · refine ⟨flash, ?_⟩
    unfold interruptedSave saveFaultLatch saveOps
    rw [if_pos hskip, List.take_nil]
  · unfold interruptedSave saveFaultLatch saveOps
    simp only [if_neg hskip]
    by_cases hfull : (faultFormat.firstErased page == kRecords) = true
    · simp only [if_pos hfull]
      cases he : flash.eraseOk with
      | false =>
          -- a failed erase leaves nothing to interrupt
          refine ⟨{ eraseOk := false }, ?_⟩
          match k with
          | 0 | 1 | 2 | 3 | k + 4 => simp [FlashOp.run, he]
      | true =>
          match k with
          | 0 | 1 | 2 => exact ⟨{ eraseOk := false }, by simp [FlashOp.run]⟩
          | 3 => exact ⟨{ eraseOk := true, programOk := false }, by simp [FlashOp.run, he]⟩
          | k + 4 => exact ⟨flash, by simp [FlashOp.run, he, run_lock]⟩
    · simp only [if_neg hfull]
      match k with
      | 0 | 1 | 2 => exact ⟨{ programOk := false }, by simp [FlashOp.run]⟩
      | k + 3 => exact ⟨flash, by simp [FlashOp.run, run_lock]⟩

/-- **A save that needs no erase is atomic.** Interrupted anywhere, it leaves the old value or the new one. -/
theorem load_interruptedSave (h : InUse page) (hfull : ¬ Full page) (k : ℕ) :
    loadFaultLatch dualBank (interruptedSave k dualBank flash value page) = loadFaultLatch dualBank page ∨
      loadFaultLatch dualBank (interruptedSave k dualBank flash value page) = value := by
  obtain ⟨flash', heq⟩ := interruptedSave_eq k dualBank flash value page
  rw [heq]
  by_cases hs : Succeeds dualBank flash' value page
  · right
    exact load_of_succeeds h hs
  · left
    apply load_of_fails hs
    rintro ⟨-, -, hwasFull, -, -⟩
    exact hfull hwasFull

end OneCall

/-! ## Runs of calls -/

/-- A call of `SaveFaultLatch` and how the flash behaves during it. -/
structure SaveCall where
  value : U32
  flash : FlashOutcome := {}
deriving DecidableEq

/-- The page after the first `n` calls, from an erased page. -/
def pageAfter (dualBank : Bool) (calls : ℕ → SaveCall) (n : ℕ) : List U64 :=
  Trace.stateAt (fun page c => saveFaultLatch dualBank c.flash c.value page) erasedPage calls n

/-- Call `k` of a run succeeds. -/
def SucceedsAt (dualBank : Bool) (calls : ℕ → SaveCall) (k : ℕ) : Prop :=
  Succeeds dualBank (calls k).flash (calls k).value (pageAfter dualBank calls k)

/-- Call `k` of a run wipes the page. -/
def WipesAt (dualBank : Bool) (calls : ℕ → SaveCall) (k : ℕ) : Prop :=
  Wipes dualBank (calls k).flash (calls k).value (pageAfter dualBank calls k)

section Runs

variable (dualBank : Bool) (calls : ℕ → SaveCall)

theorem pageAfter_inUse (n : ℕ) : InUse (pageAfter dualBank calls n) := by
  apply Trace.always inUse_erased
  intro page c h
  exact h.save dualBank c.flash c.value

variable {dualBank calls}

/-- What a load finds is kept over calls that neither succeed nor wipe. -/
theorem load_pageAfter_frame {m n : ℕ} (hmn : m ≤ n)
    (hnone : ∀ k, m ≤ k → k < n → ¬ SucceedsAt dualBank calls k ∧ ¬ WipesAt dualBank calls k) :
    loadFaultLatch dualBank (pageAfter dualBank calls n) = loadFaultLatch dualBank (pageAfter dualBank calls m) := by
  apply Trace.frame (f := fun n => loadFaultLatch dualBank (pageAfter dualBank calls n)) hmn
  intro k hmk hkn
  obtain ⟨hs, hw⟩ := hnone k hmk hkn
  exact load_of_fails hs hw

/-- **A load finds the last successful save**, unless a later call wiped the page. -/
theorem load_pageAfter {m n : ℕ} (hmn : m < n) (hm : SucceedsAt dualBank calls m)
    (hnone : ∀ k, m < k → k < n → ¬ SucceedsAt dualBank calls k ∧ ¬ WipesAt dualBank calls k) :
    loadFaultLatch dualBank (pageAfter dualBank calls n) = (calls m).value := by
  rw [load_pageAfter_frame hmn hnone]
  exact load_of_succeeds (pageAfter_inUse dualBank calls m) hm

/-- A load finds nothing after a wipe, until a save succeeds. -/
theorem load_pageAfter_wiped {m n : ℕ} (hmn : m < n) (hm : WipesAt dualBank calls m)
    (hnone : ∀ k, m < k → k < n → ¬ SucceedsAt dualBank calls k ∧ ¬ WipesAt dualBank calls k) :
    loadFaultLatch dualBank (pageAfter dualBank calls n) = 0 := by
  rw [load_pageAfter_frame hmn hnone]
  exact load_of_wipes hm

end Runs

/-! ## Runs that only save two values

The app saves `0` and one other value. A record is appended only when the value changes, so the records alternate
and a full page ends with `0`: what an erase takes away is what an erased page reads as. -/

/-- The page alternates between `v` and `0`: it reads `0` after an even number of records. -/
structure Alternates (dualBank : Bool) (v : U32) (page : List U64) : Prop where
  inUse : InUse page
  loads : loadFaultLatch dualBank page = 0 ∨ loadFaultLatch dualBank page = v
  parity : dualBank = true → (loadFaultLatch dualBank page = 0 ↔ Even (faultFormat.firstErased page))

theorem alternates_erased (dualBank : Bool) (v : U32) : Alternates dualBank v erasedPage := by
  refine ⟨inUse_erased, Or.inl (loadFaultLatch_erased dualBank), ?_⟩
  intro _
  rw [loadFaultLatch_erased, written_erased.firstErased_eq]
  decide

section Alternating

variable {dualBank : Bool} {v : U32} {page : List U64}

/-- A full page of alternating records reads `0`. -/
theorem Alternates.load_full (h : Alternates true v page) (hfull : Full page) : loadFaultLatch true page = 0 := by
  rw [h.parity rfl, hfull]
  decide

theorem Alternates.append (h : Alternates true v page) (hfull : ¬ Full page) {value : U32}
    (hvalue : value = 0 ∨ value = v) (hne : loadFaultLatch true page ≠ value) :
    Alternates true v (append page value) := by
  refine ⟨h.inUse.append hfull value, ?_, ?_⟩
  · rw [load_append h.inUse hfull]
    exact hvalue
  · intro _
    rw [load_append h.inUse hfull, h.inUse.firstErased_append hfull, Nat.even_add_one, ← h.parity rfl]
    rcases h.loads with hload | hload
    · rw [hload] at hne ⊢
      constructor
      · intro hz
        exact absurd hz.symm hne
      · intro hn
        exact absurd rfl hn
    · rw [hload] at hne ⊢
      have hzero : value = 0 := hvalue.resolve_right (Ne.symm hne)
      rw [hzero] at hne ⊢
      constructor
      · intro _
        exact hne
      · intro _
        rfl

theorem Alternates.save (h : Alternates dualBank v page) (flash : FlashOutcome) {value : U32}
    (hvalue : value = 0 ∨ value = v) : Alternates dualBank v (saveFaultLatch dualBank flash value page) := by
  rw [saveFaultLatch_eq]
  by_cases hskip : dualBank = false ∨ loadFaultLatch dualBank page = value
  · rw [if_pos hskip]
    exact h
  · rw [if_neg hskip]
    obtain ⟨hdual, hne⟩ := not_or.mp hskip
    obtain rfl : dualBank = true := by simpa using hdual
    split_ifs with hfull he hp hp
    · refine (alternates_erased true v).append not_full_erased hvalue ?_
      rw [loadFaultLatch_erased, ← h.load_full hfull]
      exact hne
    · exact alternates_erased true v
    · exact h
    · exact h.append hfull hvalue hne
    · exact h

/-- **With two values nothing is lost.** If every call saves `0` or `v`, a load finds the last successful save,
    whatever the flash did since. -/
theorem load_pageAfter_alternating {calls : ℕ → SaveCall} (hcalls : ∀ k, (calls k).value = 0 ∨ (calls k).value = v)
    {m n : ℕ} (hmn : m < n) (hm : SucceedsAt dualBank calls m)
    (hnone : ∀ k, m < k → k < n → ¬ SucceedsAt dualBank calls k) :
    loadFaultLatch dualBank (pageAfter dualBank calls n) = (calls m).value := by
  have halt : ∀ k, Alternates dualBank v (pageAfter dualBank calls k) := by
    intro k
    induction k with
    | zero => exact alternates_erased dualBank v
    | succ k ih => exact ih.save (calls k).flash (hcalls k)
  have hframe : loadFaultLatch dualBank (pageAfter dualBank calls n) =
      loadFaultLatch dualBank (pageAfter dualBank calls (m + 1)) := by
    apply Trace.frame (f := fun n => loadFaultLatch dualBank (pageAfter dualBank calls n)) hmn
    intro k hmk hkn
    show loadFaultLatch dualBank (saveFaultLatch dualBank (calls k).flash (calls k).value _) = _
    by_cases hw : WipesAt dualBank calls k
    · -- the page was full, so it read `0` already
      have hload := load_of_wipes hw
      obtain ⟨rfl, -, hfull, -, -⟩ := hw
      rw [(halt k).load_full hfull]
      exact hload
    · exact load_of_fails (hnone k hmk hkn) hw
  rw [hframe]
  exact load_of_succeeds (pageAfter_inUse dualBank calls m) hm

end Alternating

end Lhre.Vcu
