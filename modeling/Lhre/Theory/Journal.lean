import Mathlib.Tactic

/-!
# `Theory.Journal` — an append-only journal in a page of write-once cells

A page is a list of cells. A cell is erased, or it was programmed once and keeps its content until the whole page
is erased. The journal appends an encoded value at the first erased cell; a reader takes the last valid record
before the first erased cell.

## Contents
- **Formats.** `Format` is an encoding of values in cells in which no record looks erased.
- **Writing.** `blank` and `program`. `Written page w free`: the page is the records `w` and then `free` erased
  cells; `program_eq` appends a record.
- **Reading.** `scan` and `load`, and `firstErased`, the slot the next record goes to. `firstErased_eq`,
  `load_blank` and `load_program` say what they find in a written page.
-/

namespace Journal

/-- An encoding of values in cells: records decode to what was encoded, and none looks erased. -/
structure Format (R α : Type*) where
  erased : R
  decode : R → Option α
  encode : α → R
  decode_encode : ∀ a, decode (encode a) = some a
  encode_ne_erased : ∀ a, encode a ≠ erased

namespace Format

variable {R α : Type*} (F : Format R α)

/-! ## Writing -/

/-- A page with every cell erased. -/
def blank (size : ℕ) : List R := List.replicate size F.erased

/-- Writes a record to a cell. -/
def program (page : List R) (slot : ℕ) (a : α) : List R := page.set slot (F.encode a)

/-- A page is the records `w` followed by `free` erased cells. -/
structure Written (page w : List R) (free : ℕ) : Prop where
  eq : page = w ++ List.replicate free F.erased
  used : ∀ r ∈ w, r ≠ F.erased

variable {F} {page w : List R} {free : ℕ}

theorem written_blank (size : ℕ) : F.Written (F.blank size) [] size := by
  refine ⟨rfl, ?_⟩
  intro r hr
  exact absurd hr List.not_mem_nil

theorem Written.length (h : F.Written page w free) : page.length = w.length + free := by
  rw [h.eq, List.length_append, List.length_replicate]

/-- **Programming the first erased cell appends a record.** -/
theorem Written.program_eq (h : F.Written page w (free + 1)) (a : α) :
    F.Written (F.program page w.length a) (w ++ [F.encode a]) free := by
  constructor
  case eq =>
    unfold program
    rw [h.eq, List.set_append_right w.length (F.encode a) (Nat.le_refl _), Nat.sub_self, List.replicate_succ,
      List.set_cons_zero, List.append_assoc, List.singleton_append]
  case used =>
    intro r hr
    rcases List.mem_append.mp hr with hw | hlast
    · exact h.used r hw
    · rw [List.mem_singleton.mp hlast]
      exact F.encode_ne_erased a

/-! ## Reading -/

variable [DecidableEq R]

variable (F) in
/-- Reads the cells in order up to the first erased one, keeping the last valid record. -/
def scan (value : α) : List R → α
  | [] => value
  | r :: rest => if r = F.erased then value else scan ((F.decode r).getD value) rest

variable (F) in
/-- What a reader finds in a page: the last valid record, or `init` if there is none. -/
def load (init : α) (page : List R) : α := F.scan init page

variable (F) in
/-- The first erased cell; the length of the page when it has none. -/
def firstErased : List R → ℕ
  | [] => 0
  | r :: rest => if r = F.erased then 0 else firstErased rest + 1

/-- Scanning past records keeps the last valid one. -/
theorem scan_append (value : α) (hw : ∀ r ∈ w, r ≠ F.erased) (rest : List R) :
    F.scan value (w ++ rest) = F.scan (F.scan value w) rest := by
  induction w generalizing value with
  | nil => rfl
  | cons r w ih =>
      have hr : r ≠ F.erased := hw r List.mem_cons_self
      show (if r = F.erased then value else F.scan _ (w ++ rest)) =
        F.scan (if r = F.erased then value else F.scan _ w) rest
      rw [if_neg hr, if_neg hr]
      exact ih _ (fun q hq => hw q (List.mem_cons_of_mem r hq))

theorem scan_replicate (value : α) (n : ℕ) : F.scan value (List.replicate n F.erased) = value := by
  cases n with
  | zero => rfl
  | succ n =>
      show (if F.erased = F.erased then value else _) = value
      rw [if_pos rfl]

/-- The reader sees the records and nothing of the erased cells. -/
theorem Written.load_eq (h : F.Written page w free) (init : α) : F.load init page = F.scan init w := by
  unfold load
  rw [h.eq, scan_append init h.used, scan_replicate]

theorem load_blank (init : α) (size : ℕ) : F.load init (F.blank size) = init :=
  (written_blank size).load_eq init

/-- **The next record goes right after the last.** -/
theorem Written.firstErased_eq (h : F.Written page w free) : F.firstErased page = w.length := by
  rw [h.eq]
  have hused := h.used
  clear h
  induction w with
  | nil =>
      cases free with
      | zero => rfl
      | succ n =>
          show (if F.erased = F.erased then 0 else _) = 0
          rw [if_pos rfl]
  | cons r w ih =>
      have hr : r ≠ F.erased := hused r List.mem_cons_self
      show (if r = F.erased then 0 else F.firstErased (w ++ _) + 1) = w.length + 1
      rw [if_neg hr, ih (fun q hq => hused q (List.mem_cons_of_mem r hq))]

/-- **The reader sees the record just written.** -/
theorem Written.load_program (h : F.Written page w (free + 1)) (init a : α) :
    F.load init (F.program page w.length a) = a := by
  rw [(h.program_eq a).load_eq init, scan_append init h.used]
  show (if F.encode a = F.erased then _ else (F.decode (F.encode a)).getD _) = a
  rw [if_neg (F.encode_ne_erased a), F.decode_encode]
  rfl

end Format

end Journal
