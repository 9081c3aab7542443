import Lhre.Motec.Zip

/-!
# `Motec.Correctness.ZipRoundTrip` — the archive reads back

A reader starts at the end record, walks the central directory and follows each recorded offset. It takes an archive only if
the two headers of every entry agree and every byte belongs to a record.

## Contents
- **The reader.** `readLocal`, `readCentral`, `walk`, `readZip`.
- **Records as numbers in a row.** `localNums`, `centralNums`, `endNums`, with `fit_localNums`.
- **What is written.** `addFile_eq`, `foldlM_addFile`.
- **What is read.** `readLocal_eq`, `readCentral_eq`, `walk_eq`.
- **`zip_round_trip`.**
-/

namespace Lhre.Motec.Zip

open ByteFile

/-! ## The reader -/

/-- What is recovered of an entry. -/
structure Unpacked where
  name : List U8
  data : List U8
  crc : ℕ

/-- The entry of a local record, and the place behind the record. -/
def readLocal (file : List U8) (offset : ℕ) : Option (Unpacked × ℕ) :=
  match readNums [4, 2, 2, 2, 2, 2, 4, 4, 4, 2, 2] (file.drop offset) with
  | [signature, _, flags, method, _, _, crc, size, stored, nameLength, extraLength] =>
      let start := offset + 30 + nameLength + extraLength
      if signature = 0x04034b50 ∧ flags = 0 ∧ method = 0 ∧ size = stored ∧ start + stored ≤ file.length then
        some (⟨slice file (offset + 30) nameLength, slice file start stored, crc⟩, start + stored)
      else none
  | _ => none

/-- The entry of a central record whose local record starts at `expected`, the place behind the local record, and the place
behind the central one. -/
def readCentral (file : List U8) (place expected : ℕ) : Option (Unpacked × ℕ × ℕ) :=
  match readNums [4, 2, 2, 2, 2, 2, 2, 4, 4, 4, 2, 2, 2, 2, 2, 4, 4] (file.drop place) with
  | [signature, _, _, flags, method, _, _, crc, size, stored, nameLength, extraLength, commentLength, _, _, _, offset] =>
      (readLocal file offset).bind fun (entry, next) =>
        if signature = 0x02014b50 ∧ flags = 0 ∧ method = 0 ∧ offset = expected ∧ entry.crc = crc ∧ size = stored ∧
            entry.data.length = stored ∧ entry.name = slice file (place + 46) nameLength then
          some (entry, next, place + 46 + nameLength + extraLength + commentLength)
        else none
  | _ => none

/-- The entries of the central directory, and the places behind their records. -/
def walk (file : List U8) : ℕ → ℕ → ℕ → Option (List Unpacked × ℕ × ℕ)
  | 0, place, expected => some ([], expected, place)
  | count + 1, place, expected =>
      (readCentral file place expected).bind fun (entry, next, place') =>
        (walk file count place' next).map fun (entries, last) => (entry :: entries, last)

/-- The entries of an archive without a comment: its local records, its central directory and the end record follow each other
and leave no byte out. -/
def readZip (file : List U8) : Option (List Unpacked) :=
  let start := file.length - 22
  match readNums [4, 2, 2, 2, 2, 4, 4, 2] (file.drop start) with
  | [signature, disk, startDisk, count, entries, size, offset, commentLength] =>
      if signature = 0x06054b50 ∧ disk = 0 ∧ startDisk = 0 ∧ count = entries ∧ commentLength = 0 ∧ offset + size = start ∧
          22 ≤ file.length then
        (walk file count offset 0).bind fun (unpacked, next, place) =>
          if next = offset ∧ place = start then some unpacked else none
      else none
  | _ => none

/-! ## Records as numbers in a row -/

section Records

variable (crc32 : List U8 → BitVec 32) (time date : ℕ)

def localNums (f : Entry) : List (ℕ × ℕ) :=
  [(4, 0x04034b50), (2, 20), (2, 0), (2, 0), (2, time), (2, date), (4, (crc32 f.data).toNat), (4, f.data.length),
    (4, f.data.length), (2, f.nameBuf.length), (2, 0)]

def centralNums (f : Entry) (offset : ℕ) : List (ℕ × ℕ) :=
  [(4, 0x02014b50), (2, 20), (2, 20), (2, 0), (2, 0), (2, time), (2, date), (4, (crc32 f.data).toNat), (4, f.data.length),
    (4, f.data.length), (2, f.nameBuf.length), (2, 0), (2, 0), (2, 0), (2, 0), (4, 0), (4, offset)]

def endNums (count centralSize offset : ℕ) : List (ℕ × ℕ) :=
  [(4, 0x06054b50), (2, 0), (2, 0), (2, count), (2, count), (4, centralSize), (4, offset), (2, 0)]

def localRecord (f : Entry) : List U8 := encode (localNums crc32 time date f) ++ (f.nameBuf ++ f.data)

def centralRecord (f : Entry) (offset : ℕ) : List U8 := encode (centralNums crc32 time date f offset) ++ f.nameBuf

def localRecords (files : List Entry) : List U8 := (files.map (localRecord crc32 time date)).flatten

/-- The central records of files whose local records start at `offset`. -/
def centralRecords (offset : ℕ) : List Entry → List U8
  | [] => []
  | f :: files =>
      centralRecord crc32 time date f offset ++ centralRecords (offset + (localRecord crc32 time date f).length) files

/-- The buffers with those of one more file. -/
def Parts.add (parts : Parts) (f : Entry) : Parts where
  locals := parts.locals ++ [encode (localNums crc32 time date f), f.nameBuf, f.data]
  centrals := parts.centrals ++ [encode (centralNums crc32 time date f parts.offset), f.nameBuf]
  offset := parts.offset + (localRecord crc32 time date f).length

/-- What the reader recovers of a file. -/
def unpacked (f : Entry) : Unpacked := ⟨f.nameBuf, f.data, (crc32 f.data).toNat⟩

/-- The size of the archive. -/
def total (files : List Entry) : ℕ :=
  (files.map fun f => (30 + f.nameBuf.length + f.data.length) + (46 + f.nameBuf.length)).sum + 22

variable {crc32 time date} {f : Entry} {files : List Entry}

theorem length_localRecord : (localRecord crc32 time date f).length = 30 + f.nameBuf.length + f.data.length := by
  rw [localRecord, List.length_append, List.length_append, length_encode]
  show 30 + _ = _
  omega

theorem length_centralRecord (offset : ℕ) : (centralRecord crc32 time date f offset).length = 46 + f.nameBuf.length := by
  rw [centralRecord, List.length_append, length_encode]
  simp [centralNums]

theorem length_records (offset : ℕ) :
    (localRecords crc32 time date files).length + (centralRecords crc32 time date offset files).length + 22 = total files := by
  induction files generalizing offset with
  | nil => rfl
  | cons f files ih =>
      have hrest := ih (offset + (localRecord crc32 time date f).length)
      have hlocal : (localRecords crc32 time date (f :: files)).length =
          (localRecord crc32 time date f).length + (localRecords crc32 time date files).length := by
        simp [localRecords]
      rw [hlocal, centralRecords, List.length_append, length_centralRecord]
      rw [total, List.map_cons, List.sum_cons]
      rw [total] at hrest
      have hlength : (localRecord crc32 time date f).length = _ := length_localRecord
      omega

theorem fit_localNums (htime : time < 65536) (hdate : date < 65536) (hname : f.nameBuf.length < 65536)
    (hsize : f.data.length < 2 ^ 32) : Fit (localNums crc32 time date f) := by
  have hcrc := (crc32 f.data).isLt
  simp only [Fit, localNums, List.forall_mem_cons, List.not_mem_nil, false_imp_iff, implies_true, and_true]
  norm_num at hsize hcrc ⊢
  exact ⟨htime, hdate, hcrc, hsize, hname⟩

theorem fit_centralNums (htime : time < 65536) (hdate : date < 65536) (hname : f.nameBuf.length < 65536)
    (hsize : f.data.length < 2 ^ 32) {offset : ℕ} (hoffset : offset < 2 ^ 32) :
    Fit (centralNums crc32 time date f offset) := by
  have hcrc := (crc32 f.data).isLt
  simp only [Fit, centralNums, List.forall_mem_cons, List.not_mem_nil, false_imp_iff, implies_true, and_true]
  norm_num at hsize hcrc hoffset ⊢
  exact ⟨htime, hdate, hcrc, hsize, hname, hoffset⟩

theorem fit_endNums {count centralSize offset : ℕ} (hcount : count < 65536) (hcentral : centralSize < 2 ^ 32)
    (hoffset : offset < 2 ^ 32) : Fit (endNums count centralSize offset) := by
  simp only [Fit, endNums, List.forall_mem_cons, List.not_mem_nil, false_imp_iff, implies_true, and_true]
  norm_num at hcentral hoffset ⊢
  exact ⟨hcount, hcentral, hoffset⟩

end Records

/-! ## What is written -/

section Written

variable {crc32 : List U8 → BitVec 32} {d : LocalTime} {time date : ℕ} (htime : dosTime d = time) (hdate : dosDate d = date)
  (hfits : time < 65536 ∧ date < 65536)
include htime hdate hfits

theorem localHeader_eq {f : Entry} (hname : f.nameBuf.length < 65536) (hsize : f.data.length < 2 ^ 32) :
    localHeader crc32 d f = some (encode (localNums crc32 time date f)) := by
  rw [localHeader, htime, hdate]
  refine (congrArg (record 30) ?_).trans (record_inRow (fit_localNums hfits.1 hfits.2 hname hsize) (by simp [localNums]))
  simp [localNums, inRow]

theorem centralHeader_eq {f : Entry} (hname : f.nameBuf.length < 65536) (hsize : f.data.length < 2 ^ 32) {offset : ℕ}
    (hoffset : offset < 2 ^ 32) : centralHeader crc32 d f offset = some (encode (centralNums crc32 time date f offset)) := by
  rw [centralHeader, htime, hdate]
  have hfit : Fit (centralNums crc32 time date f offset) := fit_centralNums hfits.1 hfits.2 hname hsize hoffset
  refine (congrArg (record 46) ?_).trans (record_inRow hfit (by simp [centralNums]))
  simp [centralNums, inRow]

theorem addFile_eq {f : Entry} {parts : Parts} (hname : f.nameBuf.length < 65536) (hsize : f.data.length < 2 ^ 32)
    (hoffset : parts.offset < 2 ^ 32) :
    addFile crc32 d parts f = some (parts.add crc32 time date f) := by
  simp only [addFile, Parts.add, localHeader_eq htime hdate hfits hname hsize,
    centralHeader_eq htime hdate hfits hname hsize hoffset, localRecord, List.length_append, Option.bind_eq_bind,
    Option.bind_some, Nat.add_assoc]

/-- The loop writes the records of all files. -/
theorem foldlM_addFile (files : List Entry) (parts : Parts) (hname : ∀ f ∈ files, f.nameBuf.length < 65536)
    (htotal : parts.offset + (localRecords crc32 time date files).length < 2 ^ 32) :
    ∃ parts', files.foldlM (addFile crc32 d) parts = some parts' ∧
      parts'.locals.flatten = parts.locals.flatten ++ localRecords crc32 time date files ∧
      parts'.centrals.flatten = parts.centrals.flatten ++ centralRecords crc32 time date parts.offset files ∧
      parts'.offset = parts.offset + (localRecords crc32 time date files).length := by
  induction files generalizing parts with
  | nil => exact ⟨parts, rfl, by simp [localRecords], by simp [centralRecords], by simp [localRecords]⟩
  | cons f files ih =>
      have hlocal : localRecords crc32 time date (f :: files) =
          localRecord crc32 time date f ++ localRecords crc32 time date files := rfl
      have hlength : (localRecord crc32 time date f).length = _ := length_localRecord
      rw [hlocal, List.length_append] at htotal
      have hfile : addFile crc32 d parts f = some (parts.add crc32 time date f) :=
        addFile_eq htime hdate hfits (hname f List.mem_cons_self) (by omega) (by omega)
      have hrest : (parts.add crc32 time date f).offset + (localRecords crc32 time date files).length < 2 ^ 32 := by
        show parts.offset + (localRecord crc32 time date f).length + _ < _
        omega
      obtain ⟨parts', hfold, hlocals, hcentrals, hoffset⟩ :=
        ih (parts.add crc32 time date f) (fun g hg => hname g (List.mem_cons_of_mem _ hg)) hrest
      refine ⟨parts', ?_, ?_, ?_, ?_⟩
      · rw [List.foldlM_cons, hfile]
        exact hfold
      · rw [hlocals, hlocal, Parts.add]
        simp [localRecord]
      · rw [hcentrals, centralRecords, Parts.add]
        simp [centralRecord]
      · rw [hoffset, hlocal, List.length_append, Parts.add, Nat.add_assoc]

omit htime hdate hfits in
theorem endRecord_eq {count centralSize offset : ℕ} (hcount : count < 65536) (hcentral : centralSize < 2 ^ 32)
    (hoffset : offset < 2 ^ 32) : endRecord count centralSize offset = some (encode (endNums count centralSize offset)) := by
  rw [endRecord]
  refine (congrArg (record 22) ?_).trans (record_inRow (fit_endNums hcount hcentral hoffset) (by simp [endNums]))
  simp [endNums, inRow]

/-- **What `buildZip` writes**: the local records, the central records, and the end record. -/
theorem buildZip_eq {files : List Entry} (hname : ∀ f ∈ files, f.nameBuf.length < 65536) (hcount : files.length < 65536)
    (htotal : total files < 2 ^ 32) :
    buildZip crc32 d files = some (localRecords crc32 time date files ++ (centralRecords crc32 time date 0 files ++
      encode (endNums files.length (centralRecords crc32 time date 0 files).length
        (localRecords crc32 time date files).length))) := by
  have hlength : (localRecords crc32 time date files).length + (centralRecords crc32 time date 0 files).length + 22 = _ :=
    length_records 0
  have hlocals : ({} : Parts).offset + (localRecords crc32 time date files).length < 2 ^ 32 := by
    show 0 + _ < _
    omega
  obtain ⟨parts, hfold, hlocals, hcentrals, hoffset⟩ := foldlM_addFile htime hdate hfits files {} hname hlocals
  have hsize : (parts.centrals.map List.length).sum = (centralRecords crc32 time date 0 files).length := by
    rw [← List.length_flatten, hcentrals, List.flatten_nil, List.nil_append]
  have hend := endRecord_eq hcount (show (centralRecords crc32 time date 0 files).length < 2 ^ 32 by omega)
    (show (localRecords crc32 time date files).length < 2 ^ 32 by omega)
  rw [Nat.zero_add] at hoffset
  rw [buildZip, hfold, Option.bind_eq_bind, Option.bind_some]
  dsimp only
  rw [hsize, hoffset, hend, Option.bind_eq_bind, Option.bind_some]
  rw [List.flatten_append, List.flatten_append, hlocals, hcentrals, List.flatten_singleton, List.append_assoc, List.flatten_nil,
    List.nil_append, List.nil_append]

end Written

/-! ## What is read -/

/-- What stands behind the numbers of a record. -/
theorem slice_behind (before nums part rest : List U8) {n : ℕ} (hn : nums.length = n) :
    slice (before ++ (nums ++ (part ++ rest))) (before.length + n) part.length = part := by
  subst hn
  have hpart := slice_append_right nums (part ++ rest) 0 part.length
  rw [Nat.add_zero, slice_append_left] at hpart
  rw [slice_append_right, hpart]

section Reading

variable {crc32 : List U8 → BitVec 32} {time date : ℕ} (hfits : time < 65536 ∧ date < 65536) {f : Entry}
  (hname : f.nameBuf.length < 65536)
include hfits hname

/-- A local record is read back. -/
theorem readLocal_eq (before rest : List U8) (hsize : f.data.length < 2 ^ 32) :
    readLocal (before ++ (localRecord crc32 time date f ++ rest)) before.length =
      some (unpacked crc32 f, before.length + (localRecord crc32 time date f).length) := by
  have hnums : readNums [4, 2, 2, 2, 2, 2, 4, 4, 4, 2, 2]
      ((before ++ (localRecord crc32 time date f ++ rest)).drop before.length) =
        (localNums crc32 time date f).map Prod.snd := by
    rw [List.drop_left, localRecord, List.append_assoc]
    exact readNums_encode (fit_localNums hfits.1 hfits.2 hname hsize) _
  have hlength : (encode (localNums crc32 time date f)).length = 30 := by simp [localNums]
  have hnamePart : slice (before ++ (localRecord crc32 time date f ++ rest)) (before.length + 30) f.nameBuf.length =
      f.nameBuf := by
    rw [localRecord, List.append_assoc, List.append_assoc]
    exact slice_behind before _ f.nameBuf (f.data ++ rest) hlength
  have hdataPart : slice (before ++ (localRecord crc32 time date f ++ rest)) (before.length + 30 + f.nameBuf.length + 0)
      f.data.length = f.data := by
    rw [localRecord, List.append_assoc, List.append_assoc, ← List.append_assoc (encode _), Nat.add_zero, Nat.add_assoc]
    exact slice_behind before _ f.data rest (by rw [List.length_append, hlength])
  have hroom : before.length + 30 + f.nameBuf.length + 0 + f.data.length ≤
      (before ++ (localRecord crc32 time date f ++ rest)).length := by
    rw [List.length_append, List.length_append, length_localRecord]
    omega
  rw [readLocal, hnums, length_localRecord]
  simp only [localNums, List.map_cons, List.map_nil]
  rw [if_pos ⟨trivial, trivial, trivial, trivial, hroom⟩, hnamePart, hdataPart, unpacked]
  simp only [Nat.add_zero, Nat.add_assoc]

/-- A central record is read back, where its local record starts at the place it records. -/
theorem readCentral_eq {file : List U8} (before rest : List U8) (hsize : f.data.length < 2 ^ 32) {offset next : ℕ}
    (hoffset : offset < 2 ^ 32) (hfile : file = before ++ (centralRecord crc32 time date f offset ++ rest))
    (hlocal : readLocal file offset = some (unpacked crc32 f, next)) :
    readCentral file before.length offset =
      some (unpacked crc32 f, next, before.length + (centralRecord crc32 time date f offset).length) := by
  have hnums : readNums [4, 2, 2, 2, 2, 2, 2, 4, 4, 4, 2, 2, 2, 2, 2, 4, 4] (file.drop before.length) =
      (centralNums crc32 time date f offset).map Prod.snd := by
    rw [hfile, List.drop_left, centralRecord, List.append_assoc]
    exact readNums_encode (fit_centralNums hfits.1 hfits.2 hname hsize hoffset) _
  have hlength : (encode (centralNums crc32 time date f offset)).length = 46 := by simp [centralNums]
  have hnamePart : slice file (before.length + 46) f.nameBuf.length = f.nameBuf := by
    rw [hfile, centralRecord, List.append_assoc]
    exact slice_behind before _ f.nameBuf rest hlength
  rw [readCentral, hnums, length_centralRecord]
  simp only [centralNums, List.map_cons, List.map_nil]
  rw [hlocal, Option.bind_some]
  dsimp only
  rw [if_pos ⟨trivial, trivial, trivial, trivial, rfl, trivial, rfl, hnamePart.symm⟩]
  simp only [Nat.add_zero, Nat.add_assoc]

end Reading

/-- **The central directory is walked** from the first entry to the last. -/
theorem walk_eq {crc32 : List U8 → BitVec 32} {time date : ℕ} (hfits : time < 65536 ∧ date < 65536) {file : List U8}
    (files : List Entry) (before middle rest : List U8) (hname : ∀ f ∈ files, f.nameBuf.length < 65536)
    (hsize : file.length < 2 ^ 32)
    (hfile : file = before ++ (localRecords crc32 time date files ++
      (middle ++ (centralRecords crc32 time date before.length files ++ rest)))) :
    walk file files.length (before.length + (localRecords crc32 time date files).length + middle.length) before.length =
      some (files.map (unpacked crc32), before.length + (localRecords crc32 time date files).length,
        before.length + (localRecords crc32 time date files).length + middle.length +
          (centralRecords crc32 time date before.length files).length) := by
  induction files generalizing before middle with
  | nil => rfl
  | cons f files ih =>
      have hlocal : localRecords crc32 time date (f :: files) =
          localRecord crc32 time date f ++ localRecords crc32 time date files := rfl
      have hcentral : centralRecords crc32 time date before.length (f :: files) =
          centralRecord crc32 time date f before.length ++
            centralRecords crc32 time date (before ++ localRecord crc32 time date f).length files := by
        rw [centralRecords, List.length_append]
      have hlen : (localRecord crc32 time date f).length = 30 + f.nameBuf.length + f.data.length := length_localRecord
      have hfits' : before.length + (localRecord crc32 time date f).length ≤ file.length := by
        rw [hfile, hlocal]
        simp only [List.length_append]
        omega
      have hread : readLocal file before.length =
          some (unpacked crc32 f, (before ++ localRecord crc32 time date f).length) := by
        rw [hfile, hlocal, List.append_assoc, show (before ++ localRecord crc32 time date f).length = _ from List.length_append]
        exact readLocal_eq hfits (hname f List.mem_cons_self) before _ (by omega)
      have hplace : before.length + (localRecords crc32 time date (f :: files)).length + middle.length =
          (before ++ (localRecords crc32 time date (f :: files) ++ middle)).length := by
        simp only [List.length_append, Nat.add_assoc]
      have hdirectory :
          readCentral file (before ++ (localRecords crc32 time date (f :: files) ++ middle)).length before.length =
          some (unpacked crc32 f, (before ++ localRecord crc32 time date f).length,
            (before ++ (localRecords crc32 time date (f :: files) ++ middle)).length +
              (centralRecord crc32 time date f before.length).length) := by
        refine readCentral_eq hfits (hname f List.mem_cons_self) _
          (centralRecords crc32 time date (before ++ localRecord crc32 time date f).length files ++ rest) (by omega) (by omega)
          ?_ hread
        rw [hfile, hcentral]
        simp only [List.append_assoc]
      have hrest := ih (before ++ localRecord crc32 time date f) (middle ++ centralRecord crc32 time date f before.length)
        (fun g hg => hname g (List.mem_cons_of_mem _ hg)) (by
          rw [hfile, hlocal, hcentral]
          simp only [List.append_assoc])
      rw [List.length_cons, walk, hplace, hdirectory, Option.bind_some]
      dsimp only
      rw [show (before ++ (localRecords crc32 time date (f :: files) ++ middle)).length +
            (centralRecord crc32 time date f before.length).length =
          (before ++ localRecord crc32 time date f).length + (localRecords crc32 time date files).length +
            (middle ++ centralRecord crc32 time date f before.length).length by
        rw [hlocal]
        simp only [List.length_append]
        omega, hrest, hlocal, hcentral]
      simp only [Option.map_some, List.map_cons, List.length_append, Nat.add_assoc]

/-- The end record is read back. -/
theorem readEnd_eq (before : List U8) {count centralSize offset : ℕ} (hcount : count < 65536) (hcentral : centralSize < 2 ^ 32)
    (hoffset : offset < 2 ^ 32) :
    readNums [4, 2, 2, 2, 2, 4, 4, 2] ((before ++ encode (endNums count centralSize offset)).drop before.length) =
      (endNums count centralSize offset).map Prod.snd := by
  rw [List.drop_left, ← List.append_nil (encode _)]
  exact readNums_encode (fit_endNums hcount hcentral hoffset) []

/-! ## Times -/

theorem dosTime_fits (d : LocalTime) : ∃ time : ℕ, dosTime d = time ∧ time < 65536 := by
  refine ⟨_, rfl, ?_⟩
  have hhours := d.hours.isLt
  have hminutes := d.minutes.isLt
  have hseconds := d.seconds.isLt
  rw [Nat.shiftLeft_eq, Nat.shiftLeft_eq]
  exact Nat.or_lt_two_pow (n := 16) (Nat.or_lt_two_pow (by omega) (by omega)) (by omega)

/-- A date of the years that a ZIP can hold fits. -/
theorem dosDate_fits {d : LocalTime} (hyear : 1980 ≤ d.fullYear ∧ d.fullYear ≤ 2107) :
    ∃ date : ℕ, dosDate d = date ∧ date < 65536 := by
  obtain ⟨year, hyear'⟩ := Int.eq_ofNat_of_zero_le (show 0 ≤ d.fullYear - 1980 by omega)
  have hmonth := d.month.isLt
  have hdate := d.date.isLt
  have hshift : (year : ℤ) * 2 ^ 9 = ((year * 2 ^ 9 : ℕ) : ℤ) := by push_cast; rfl
  refine ⟨(year * 2 ^ 9 ||| (d.month.val + 1) <<< 5) ||| d.date.val, ?_, ?_⟩
  · rw [dosDate, hyear', hshift]
    rfl
  · rw [Nat.shiftLeft_eq]
    exact Nat.or_lt_two_pow (n := 16) (Nat.or_lt_two_pow (by omega) (by omega)) (by omega)

/-- **An archive reads back**: every entry in order, with its name, its contents and its checksum in both headers. -/
theorem zip_round_trip (crc32 : List U8 → BitVec 32) {d : LocalTime} (hyear : 1980 ≤ d.fullYear ∧ d.fullYear ≤ 2107)
    {files : List Entry} (hname : ∀ f ∈ files, f.nameBuf.length < 65536) (hcount : files.length < 65536)
    (htotal : total files < 2 ^ 32) :
    ∃ file, buildZip crc32 d files = some file ∧ file.length = total files ∧
      readZip file = some (files.map fun f => ⟨f.nameBuf, f.data, (crc32 f.data).toNat⟩) := by
  obtain ⟨time, htime, htimefits⟩ := dosTime_fits d
  obtain ⟨date, hdate, hdatefits⟩ := dosDate_fits hyear
  have hlength : (localRecords crc32 time date files).length + (centralRecords crc32 time date 0 files).length + 22 = _ :=
    length_records 0
  have hbuild : buildZip crc32 d files = _ := buildZip_eq htime hdate ⟨htimefits, hdatefits⟩ hname hcount htotal
  generalize hL : localRecords crc32 time date files = locals at hlength hbuild
  generalize hC : centralRecords crc32 time date 0 files = centrals at hlength hbuild
  have hsplit : locals ++ (centrals ++ encode (endNums files.length centrals.length locals.length)) =
      locals ++ centrals ++ encode (endNums files.length centrals.length locals.length) := (List.append_assoc _ _ _).symm
  have hend : (encode (endNums files.length centrals.length locals.length)).length = 22 := by simp [endNums]
  have hsize : (locals ++ (centrals ++ encode (endNums files.length centrals.length locals.length))).length = total files := by
    rw [List.length_append, List.length_append, hend]
    omega
  have hnums := readEnd_eq (locals ++ centrals) hcount (show centrals.length < 2 ^ 32 by omega)
    (show locals.length < 2 ^ 32 by omega)
  have hlayout : locals ++ (centrals ++ encode (endNums files.length centrals.length locals.length)) =
      [] ++ (localRecords crc32 time date files ++ ([] ++ (centralRecords crc32 time date 0 files ++
        encode (endNums files.length centrals.length locals.length)))) := by
    rw [hL, hC]
    rfl
  have hwalk := walk_eq ⟨htimefits, hdatefits⟩ files [] [] _ hname (hsize.trans_lt htotal) hlayout
  simp only [List.length_nil, Nat.zero_add, Nat.add_zero, hL, hC] at hwalk
  rw [← hsplit] at hnums
  generalize locals ++ (centrals ++ encode (endNums files.length centrals.length locals.length)) = file at *
  refine ⟨file, hbuild, hsize, ?_⟩
  have hstart : file.length - 22 = (locals ++ centrals).length := by
    rw [List.length_append]
    omega
  rw [readZip, hstart, hnums]
  simp only [endNums, List.map_cons, List.map_nil]
  rw [if_pos ⟨trivial, trivial, trivial, trivial, trivial, List.length_append.symm, by omega⟩, hwalk, Option.bind_some]
  dsimp only
  rw [if_pos ⟨rfl, List.length_append.symm⟩]
  rfl

/-- A file of one byte, and an empty one. -/
theorem zip_round_trip_two :
    ∃ file, buildZip (fun data => if data = [0x61] then 0xE8B7BE43 else 0) ⟨2026, 5, 1, 12, 30, 59⟩
        [⟨"a.ld", [0x61]⟩, ⟨"b.ld", []⟩] = some file ∧
      file.length = total [⟨"a.ld", [0x61]⟩, ⟨"b.ld", []⟩] ∧
      readZip file = some ([⟨"a.ld", [0x61]⟩, ⟨"b.ld", []⟩].map fun f : Entry =>
        ⟨f.nameBuf, f.data, (if f.data = [0x61] then (0xE8B7BE43 : BitVec 32) else 0).toNat⟩) :=
  zip_round_trip _ (by norm_num) (by decide) (by decide) (by decide)

end Lhre.Motec.Zip
