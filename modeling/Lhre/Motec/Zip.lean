import Mathlib.Data.Int.Bitwise
import Lhre.Theory.ByteRecord

/-!
# `Motec.Zip` — the archive of an export

`apps/telemetry/analysis/database/viewer_tool/src/lib/motec/zip.ts`: `buildZip`. A write of a number that is out of range is
refused, as `writeUInt16LE` and `writeUInt32LE` refuse it. `crc32` of `zlib` is a parameter; the date is that of the clock.

## Contents
- **Times.** `LocalTime`, `dosTime`, `dosDate`.
- **The archive.** `localHeader`, `centralHeader`, `addFile`, `buildZip`.
-/

namespace Lhre.Motec.Zip

open ByteFile

abbrev U8 := BitVec 8

/-! ## Times -/

/-- The fields of a `Date` that are used, in local time. -/
structure LocalTime where
  fullYear : ℤ
  month : Fin 12
  date : Fin 32
  hours : Fin 24
  minutes : Fin 60
  seconds : Fin 60

/-- The time of `dosDateTime`. -/
def dosTime (d : LocalTime) : ℤ := ((d.hours.val <<< 11 ||| d.minutes.val <<< 5 ||| d.seconds.val / 2 : ℕ) : ℤ)

/-- The date of `dosDateTime`. -/
def dosDate (d : LocalTime) : ℤ :=
  Int.lor (Int.lor ((d.fullYear - 1980) * 2 ^ 9) (((d.month.val + 1) <<< 5 : ℕ) : ℤ)) (d.date.val : ℤ)

/-! ## The archive -/

/-- `Entry`. -/
structure Entry where
  name : String
  data : List U8

/-- `Buffer.from(file.name, "utf8")`. -/
def Entry.nameBuf (file : Entry) : List U8 := file.name.toByteArray.data.toList.map UInt8.toBitVec

variable (crc32 : List U8 → BitVec 32) (d : LocalTime)

def localHeader (file : Entry) : Option (List U8) :=
  record 30 [⟨0x04034b50, 0, 4⟩, ⟨20, 4, 2⟩, ⟨0, 6, 2⟩, ⟨0, 8, 2⟩, ⟨dosTime d, 10, 2⟩, ⟨dosDate d, 12, 2⟩,
    ⟨(crc32 file.data).toNat, 14, 4⟩, ⟨file.data.length, 18, 4⟩, ⟨file.data.length, 22, 4⟩, ⟨file.nameBuf.length, 26, 2⟩,
    ⟨0, 28, 2⟩]

def centralHeader (file : Entry) (offset : ℕ) : Option (List U8) :=
  record 46 [⟨0x02014b50, 0, 4⟩, ⟨20, 4, 2⟩, ⟨20, 6, 2⟩, ⟨0, 8, 2⟩, ⟨0, 10, 2⟩, ⟨dosTime d, 12, 2⟩, ⟨dosDate d, 14, 2⟩,
    ⟨(crc32 file.data).toNat, 16, 4⟩, ⟨file.data.length, 20, 4⟩, ⟨file.data.length, 24, 4⟩, ⟨file.nameBuf.length, 28, 2⟩,
    ⟨0, 30, 2⟩, ⟨0, 32, 2⟩, ⟨0, 34, 2⟩, ⟨0, 36, 2⟩, ⟨0, 38, 4⟩, ⟨offset, 42, 4⟩]

/-- `end`. -/
def endRecord (count centralSize offset : ℕ) : Option (List U8) :=
  record 22 [⟨0x06054b50, 0, 4⟩, ⟨0, 4, 2⟩, ⟨0, 6, 2⟩, ⟨count, 8, 2⟩, ⟨count, 10, 2⟩, ⟨centralSize, 12, 4⟩, ⟨offset, 16, 4⟩,
    ⟨0, 20, 2⟩]

/-- What the loop carries: the buffers of `locals` and of `centrals`, and `offset`. -/
structure Parts where
  locals : List (List U8) := []
  centrals : List (List U8) := []
  offset : ℕ := 0

/-- The loop body. -/
def addFile (parts : Parts) (file : Entry) : Option Parts := do
  let header ← localHeader crc32 d file
  let central ← centralHeader crc32 d file parts.offset
  some {
    locals := parts.locals ++ [header, file.nameBuf, file.data]
    centrals := parts.centrals ++ [central, file.nameBuf]
    offset := parts.offset + (header.length + file.nameBuf.length + file.data.length) }

/-- `buildZip`. -/
def buildZip (files : List Entry) : Option (List U8) := do
  let parts ← files.foldlM (addFile crc32 d) {}
  let centralSize := (parts.centrals.map List.length).sum
  let finish ← endRecord files.length centralSize parts.offset
  some (parts.locals ++ parts.centrals ++ [finish]).flatten

end Lhre.Motec.Zip
