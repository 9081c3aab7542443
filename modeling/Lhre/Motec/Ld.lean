import Lhre.Drivers.System
import Lhre.Theory.ByteFile
import Lhre.Theory.Float32

/-!
# `Motec.Ld` — the writer of MoTeC `.ld` files

`viewer_tool/src/lib/motec`: `DataLog` and `Channel` of `datalog.ts`, and the packer and `writeLd` of `motecLd.ts`. A number
is a rational or, where it is not finite, `none`; times are rationals. The date of the file and `parseInt` are parameters.

## Contents
- **The log.** `Sample`, `Channel`, `DataLog`.
- **Formats.** `Token`, `parseFormat`, `sizeOf`.
- **Packing.** `PackValue`, `pack`, `fixed`.
- **The file.** `channelBlocks`, the four fixed blocks, and `writeLd`.
-/

namespace Lhre.Motec

open ByteFile

/-! ## The log -/

/-- `Sample`. -/
structure Sample where
  t : ℚ
  value : Option ℚ
deriving DecidableEq

/-- `Channel`. -/
structure Channel where
  name : String
  unit : String := ""
  quantity : String := ""
  samples : List Sample := []
deriving DecidableEq

/-- `DataLog`: a name, and the channels in insertion order. -/
structure DataLog where
  name : String
  channels : List Channel
deriving DecidableEq

/-- `averageFrequency`. -/
def Channel.averageFrequency (c : Channel) : ℚ :=
  let start := (c.samples.head?.map (·.t)).getD 0
  let finish := (c.samples.getLast?.map (·.t)).getD 0
  if c.samples.length < 2 ∨ finish ≤ start then 0 else ((c.samples.length - 1 : ℕ) : ℚ) / (finish - start)

/-- `Math.round`. -/
def mathRound (x : ℚ) : ℤ := ⌊x + 1 / 2⌋

/-! ## Formats -/

def vehiclePtr : ℕ := 1762
def venuePtr : ℕ := 5078
def eventPtr : ℕ := 8180
def headerPtr : ℕ := 11336

/-- `HEAD_FMT`. -/
def headFmt : String := "<I4xII20xI24xHHHI8sHHI4x16s16x16s16x64s64s64x64s64x1024xI66x64s126x64s64s"
/-- `VEHICLE_FMT`. -/
def vehicleFmt : String := "<64s128xI32s32s"
/-- `VENUE_FMT`. -/
def venueFmt : String := "<64s1034xH"
/-- `EVENT_FMT`. -/
def eventFmt : String := "<64s64s1024sH"
/-- `CHAN_FMT`. -/
def chanFmt : String := "<IIIIHHHHHHHh32s8s12s40x"

/-- The types of number tokens. -/
inductive NumType
  | uint32
  | int32
  | uint16
  | int16
  | uint8
  | int8
deriving DecidableEq, Repr

/-- The letter of a type. -/
def NumType.ofChar : Char → Option NumType
  | 'I' => some .uint32
  | 'i' => some .int32
  | 'H' => some .uint16
  | 'h' => some .int16
  | 'B' => some .uint8
  | 'b' => some .int8
  | _ => none

/-- `widths`. -/
def NumType.width : NumType → ℕ
  | .uint32 | .int32 => 4
  | .uint16 | .int16 => 2
  | .uint8 | .int8 => 1

/-- The types whose numbers may be negative. -/
def NumType.signed : NumType → Bool
  | .int32 | .int16 | .int8 => true
  | _ => false

/-- `Token`. -/
inductive Token
  | pad (count : ℕ)
  | str (size : ℕ)
  | num (type : NumType) (count : ℕ)
deriving DecidableEq, Repr

/-- The token of a letter with its count. -/
def Token.ofChar (c : Char) (count : ℕ) : Option Token :=
  if c = 'x' then some (.pad count)
  else if c = 's' then some (.str count)
  else (NumType.ofChar c).map (.num · count)

/-- The loop of `parseFormat`, with the number read so far; a letter of no type has no width, and fails here. -/
def parseTokens : Option ℕ → List Char → Option (List Token)
  | none, [] => some []
  | some _, [] => none
  | number, c :: rest =>
      if c.isDigit then parseTokens (some (10 * number.getD 0 + (c.toNat - '0'.toNat))) rest
      else (Token.ofChar c (number.getD 1)).bind fun token => (parseTokens none rest).map (token :: ·)

/-- `parseFormat`. -/
def parseFormat (fmt : String) : Option (List Token) :=
  match fmt.toList with
  | '<' :: body => parseTokens none body
  | '>' :: body => parseTokens none body
  | body => parseTokens none body

/-- The bytes of a token. -/
def Token.size : Token → ℕ
  | .pad count => count
  | .str size => size
  | .num type count => type.width * count

/-- `sizeOf`. -/
def sizeOf (tokens : List Token) : ℕ := (tokens.map Token.size).sum

/-! ## Packing -/

/-- `PackValue`. -/
inductive PackValue
  | num (v : ℤ)
  | str (s : List Char)
deriving DecidableEq

/-- `String(value)`. -/
def PackValue.text : PackValue → List Char
  | .num v => (toString v).toList
  | .str s => s

/-- `Number(value)`; no format takes a number from a text. -/
def PackValue.number : PackValue → ℤ
  | .num v => v
  | .str _ => 0

/-- `Buffer.from(raw, "ascii")`. -/
def asciiBytes (raw : List Char) : List U8 := raw.map fun c => BitVec.ofNat 8 c.toNat

/-- A text in a field of a size, cut off or filled with zeros. -/
def textField (size : ℕ) (text : List Char) : List U8 :=
  (asciiBytes text).take size ++ List.replicate (size - (asciiBytes text).length) 0

/-- A number in its bytes, of which it keeps as many as there are. -/
def numField (type : NumType) (v : ℤ) : List U8 := le type.width (v % 256 ^ type.width).toNat

/-- The numbers of one token. -/
def numFields (type : NumType) : ℕ → List PackValue → List U8
  | 0, _ => []
  | count + 1, values => numField type ((values.head?.map (·.number)).getD 0) ++ numFields type count values.tail

/-- The loop of `pack`. -/
def packTokens : List Token → List PackValue → List U8
  | [], _ => []
  | .pad count :: rest, values => List.replicate count 0 ++ packTokens rest values
  | .str size :: rest, values => textField size ((values.head?.map (·.text)).getD []) ++ packTokens rest values.tail
  | .num type count :: rest, values => numFields type count values ++ packTokens rest (values.drop count)

/-- `pack`. -/
def pack (fmt : String) (values : List PackValue) : List U8 := packTokens ((parseFormat fmt).getD []) values

/-- `CHANNEL_HEADER_SIZE`. -/
def channelHeaderSize : ℕ := sizeOf ((parseFormat chanFmt).getD [])

/-- `fixed`. -/
def fixed (text : String) (size : ℕ) : List Char :=
  let ascii := text.toList.filter fun c => decide (c.toNat < 128)
  if size ≤ ascii.length then ascii.take (size - 1) else ascii

/-- The double `3.4e38`. -/
def floatLimit : ℚ := 339999999999999996123846586046231871488

/-- `cleanFloat`. -/
def cleanFloat : Option ℚ → ℚ
  | none => 0
  | some v => max (-floatLimit) (min floatLimit v)

/-! ## The file -/

/-- The frequency in a channel's header. -/
def Channel.freq (c : Channel) : ℤ := max 1 (mathRound (if c.averageFrequency = 0 then 1 else c.averageFrequency))

/-- The samples of a channel as floats. -/
def Channel.data (c : Channel) : List U8 := (c.samples.map fun s => le 4 (Float32.encode (cleanFloat s.value))).flatten

/-- The values of the header of channel `index` of `n`, at its place and with the place of its data. -/
def channelValues (n index metaPtr dataPtr : ℕ) (c : Channel) : List PackValue :=
  let prevMeta := if index = 0 then 0 else metaPtr - channelHeaderSize
  let nextMeta := if index = n - 1 then 0 else metaPtr + channelHeaderSize
  [.num prevMeta, .num nextMeta, .num dataPtr, .num c.samples.length, .num (0x2ee1 + index), .num 0x07, .num 4,
    .num c.freq, .num 0, .num 1, .num 1, .num 0, .str (fixed c.name 32), .str (fixed c.quantity 8), .str (fixed c.unit 12)]

/-- The header of channel `index` of `n`. -/
def channelHeader (n index metaPtr dataPtr : ℕ) (c : Channel) : List U8 :=
  pack chanFmt (channelValues n index metaPtr dataPtr c)

/-- The headers and the data of the channels from an index on, with the running pointers. -/
def channelBlocks (n : ℕ) : (index metaPtr dataPtr : ℕ) → List Channel → List (List U8 × List U8)
  | _, _, _, [] => []
  | index, metaPtr, dataPtr, c :: rest =>
      (channelHeader n index metaPtr dataPtr c, c.data) ::
        channelBlocks n (index + 1) (metaPtr + channelHeaderSize) (dataPtr + c.data.length) rest

/-- The parts of a date in UTC, as the getters of `Date` return them. -/
structure UtcDate where
  date : ℕ
  month : ℕ
  fullYear : ℤ
  hours : ℕ
  minutes : ℕ
  seconds : ℕ
deriving DecidableEq

/-- `pad2`. -/
def pad2 (n : ℕ) : String := if (toString n).length < 2 then "0" ++ toString n else toString n

/-- `dateStr`. -/
def UtcDate.dateStr (d : UtcDate) : String := pad2 d.date ++ "/" ++ pad2 (d.month + 1) ++ "/" ++ toString d.fullYear

/-- `timeStr`. -/
def UtcDate.timeStr (d : UtcDate) : String := pad2 d.hours ++ ":" ++ pad2 d.minutes ++ ":" ++ pad2 d.seconds

/-- The channels that are written: those with samples. -/
def DataLog.written (log : DataLog) : List Channel := log.channels.filter fun c => !c.samples.isEmpty

section File

-- `d` is the date of `metadataDate`, `parseInt` the number of a text, or 0 where it has none.
variable (log : DataLog) (metadata : String → Option String) (d : UtcDate) (parseInt : String → ℤ)

/-- The values of `header`. -/
def headerValues : List PackValue :=
  [.num 0x40, .num headerPtr, .num (headerPtr + log.written.length * channelHeaderSize : ℕ), .num eventPtr, .num 1,
    .num 0x4240, .num 0xf, .num 0x1f44, .str "ADL".toList, .num 420, .num 0xadb0, .num log.written.length,
    .str (fixed d.dateStr 16), .str (fixed d.timeStr 16), .str (fixed ((metadata "driver").getD "") 64),
    .str (fixed ((metadata "vehicle_id").getD "Orion") 64), .str (fixed ((metadata "venue").getD "") 64), .num 0xc81a4,
    .str (fixed ((metadata "short_comment").getD log.name) 64),
    .str (fixed ((metadata "event").getD "Telemetry Export") 64), .str (fixed ((metadata "session").getD "") 64)]

/-- `header`. -/
def headerBlock : List U8 := pack headFmt (headerValues log metadata d)

/-- The values of `vehicle`. -/
def vehicleValues : List PackValue :=
  [.str (fixed ((metadata "vehicle_id").getD "Orion") 64), .num (parseInt ((metadata "vehicle_weight").getD "0")),
    .str (fixed ((metadata "vehicle_type").getD "EV") 32), .str (fixed ((metadata "vehicle_comment").getD "") 32)]

/-- `vehicle`. -/
def vehicleBlock : List U8 := pack vehicleFmt (vehicleValues metadata parseInt)

/-- The values of `venue`. -/
def venueValues : List PackValue := [.str (fixed ((metadata "venue").getD "") 64), .num vehiclePtr]

/-- `venue`. -/
def venueBlock : List U8 := pack venueFmt (venueValues metadata)

/-- The values of `event`. -/
def eventValues : List PackValue :=
  [.str (fixed ((metadata "event").getD "Telemetry Export") 64), .str (fixed ((metadata "session").getD "") 64),
    .str (fixed ((metadata "long_comment").getD "") 1024), .num venuePtr]

/-- `event`. -/
def eventBlock : List U8 := pack eventFmt (eventValues metadata)

/-- `writeLd`. -/
def writeLd : List U8 :=
  let n := log.written.length
  let blocks := channelBlocks n 0 headerPtr (headerPtr + n * channelHeaderSize) log.written
  let headers := blocks.map (·.1)
  let data := blocks.map (·.2)
  let total := headerPtr + n * channelHeaderSize + (data.map List.length).sum
  let file := List.replicate total 0
  let file := copy file 0 (headerBlock log metadata d)
  let file := copy file vehiclePtr (vehicleBlock metadata parseInt)
  let file := copy file venuePtr (venueBlock metadata)
  let file := copy file eventPtr (eventBlock metadata)
  let file := copyAll file headerPtr headers
  copyAll file (headerPtr + (headers.map List.length).sum) data

end File

end Lhre.Motec
