import Lhre.Motec.Ld

/-!
# `Motec.LdFile` — what is at each place of a written file

A block read back with the format it was packed with gives its values, each as far as its field holds it. A file is the four
fixed blocks, the channel headers and the data, and below is which of them a place belongs to.

## Contents
- **Reading a block.** `Field`, `unpack`, and `unpackTokens_packTokens`.
- **Channels.** `channelBlocks_getElem?`: the header and the data of each channel.
- **The file.** `fixedBlocks`, `slice_fixed`, `slice_header`, `slice_data`.
-/

namespace Lhre.Motec

open ByteFile

/-! ## Reading a block -/

/-- What a token reads as: a number, or the bytes of a text with the zeros behind it. -/
inductive Field
  | num (v : ℤ)
  | text (bytes : List U8)
deriving DecidableEq

/-- The number of a field. -/
def NumType.decode (type : NumType) (bytes : List U8) : ℤ :=
  if type.signed then Int.bmod (ofLe bytes) (256 ^ type.width) else ofLe bytes

/-- The numbers of one token. -/
def unpackNums (type : NumType) : ℕ → List U8 → List Field
  | 0, _ => []
  | count + 1, bytes => .num (type.decode (bytes.take type.width)) :: unpackNums type count (bytes.drop type.width)

/-- The fields of a block. -/
def unpackTokens : List Token → List U8 → List Field
  | [], _ => []
  | .pad count :: rest, bytes => unpackTokens rest (bytes.drop count)
  | .str size :: rest, bytes => .text (bytes.take size) :: unpackTokens rest (bytes.drop size)
  | .num type count :: rest, bytes =>
      unpackNums type count bytes ++ unpackTokens rest (bytes.drop (type.width * count))

/-- A block of a file read with a format, unless the file ends before it does. -/
def unpack (fmt : String) (file : List U8) (place : ℕ) : Option (List Field) :=
  (parseFormat fmt).bind fun tokens =>
    if place + sizeOf tokens ≤ file.length then some (unpackTokens tokens (slice file place (sizeOf tokens))) else none

/-- What a type keeps of a number. -/
def NumType.wrap (type : NumType) (v : ℤ) : ℤ :=
  if type.signed then Int.bmod v (256 ^ type.width) else v % 256 ^ type.width

/-- The fields of the numbers of one token. -/
def numFieldsOf (type : NumType) : ℕ → List PackValue → List Field
  | 0, _ => []
  | count + 1, values =>
      .num (type.wrap ((values.head?.map (·.number)).getD 0)) :: numFieldsOf type count values.tail

/-- The fields that packed values read as. -/
def fieldsOf : List Token → List PackValue → List Field
  | [], _ => []
  | .pad _ :: rest, values => fieldsOf rest values
  | .str size :: rest, values => .text (textField size ((values.head?.map (·.text)).getD [])) :: fieldsOf rest values.tail
  | .num type count :: rest, values => numFieldsOf type count values ++ fieldsOf rest (values.drop count)

@[simp] theorem length_textField (size : ℕ) (text : List Char) : (textField size text).length = size := by
  unfold textField
  rw [List.length_append, List.length_take, List.length_replicate]
  omega

@[simp] theorem length_numField (type : NumType) (v : ℤ) : (numField type v).length = type.width := length_le _ _

@[simp] theorem length_numFields (type : NumType) (count : ℕ) (values : List PackValue) :
    (numFields type count values).length = type.width * count := by
  induction count generalizing values with
  | zero => rfl
  | succ count ih =>
      rw [numFields, List.length_append, length_numField, ih]
      ring

/-- **A packed block** is as long as its format. -/
theorem length_packTokens (tokens : List Token) (values : List PackValue) :
    (packTokens tokens values).length = sizeOf tokens := by
  induction tokens generalizing values with
  | nil => rfl
  | cons token rest ih =>
      cases token with
      | pad count => rw [packTokens, List.length_append, List.length_replicate, ih]; rfl
      | str size => rw [packTokens, List.length_append, length_textField, ih]; rfl
      | num type count => rw [packTokens, List.length_append, length_numFields, ih]; rfl

theorem decode_numField (type : NumType) (v : ℤ) : type.decode (numField type v) = type.wrap v := by
  have hpos : (0 : ℤ) < 256 ^ type.width := by positivity
  have hlt : (v % 256 ^ type.width).toNat < 256 ^ type.width := by
    have := Int.emod_lt_of_pos v hpos
    have := Int.emod_nonneg v hpos.ne'
    zify
    omega
  have hnat : ((ofLe (numField type v) : ℕ) : ℤ) = v % 256 ^ type.width := by
    rw [numField, ofLe_le, Nat.mod_eq_of_lt hlt, Int.toNat_of_nonneg (Int.emod_nonneg v hpos.ne')]
  unfold NumType.decode NumType.wrap
  rw [hnat]
  split
  · have hcast : (256 : ℤ) ^ type.width = ((256 ^ type.width : ℕ) : ℤ) := by push_cast; rfl
    rw [hcast, Int.emod_bmod]
  · rfl

theorem unpackNums_numFields (type : NumType) (count : ℕ) (values : List PackValue) (bytes : List U8) :
    unpackNums type count (numFields type count values ++ bytes) = numFieldsOf type count values := by
  induction count generalizing values with
  | zero => rfl
  | succ count ih =>
      rw [numFields, unpackNums, numFieldsOf, List.append_assoc, List.take_left' (length_numField _ _),
        List.drop_left' (length_numField _ _), decode_numField, ih]

/-- **A block read back** gives what was packed. -/
theorem unpackTokens_packTokens (tokens : List Token) (values : List PackValue) (bytes : List U8) :
    unpackTokens tokens (packTokens tokens values ++ bytes) = fieldsOf tokens values := by
  induction tokens generalizing values with
  | nil => rfl
  | cons token rest ih =>
      cases token with
      | pad count =>
          rw [packTokens, unpackTokens, fieldsOf, List.append_assoc, List.drop_left' (List.length_replicate), ih]
      | str size =>
          rw [packTokens, unpackTokens, fieldsOf, List.append_assoc, List.take_left' (length_textField _ _),
            List.drop_left' (length_textField _ _), ih]
      | num type count =>
          rw [packTokens, unpackTokens, fieldsOf, List.append_assoc, unpackNums_numFields,
            List.drop_left' (length_numFields _ _ _), ih]

/-- Reading with one format after another. -/
theorem unpackTokens_append (first second : List Token) (bytes : List U8) :
    unpackTokens (first ++ second) bytes = unpackTokens first bytes ++ unpackTokens second (bytes.drop (sizeOf first)) := by
  induction first generalizing bytes with
  | nil => rfl
  | cons token rest ih =>
      have hsize : sizeOf (token :: rest) = token.size + sizeOf rest := rfl
      cases token with
      | pad count =>
          rw [List.cons_append, unpackTokens, unpackTokens, ih, List.drop_drop, hsize]
          rfl
      | str size =>
          rw [List.cons_append, unpackTokens, unpackTokens, ih, List.drop_drop, hsize]
          rfl
      | num type count =>
          rw [List.cons_append, unpackTokens, unpackTokens, ih, List.drop_drop, hsize, List.append_assoc]
          rfl

/-- The values that a format takes. -/
def Token.taken : Token → ℕ
  | .pad _ => 0
  | .str _ => 1
  | .num _ count => count

/-- Packing with one format after another. -/
theorem packTokens_append (first second : List Token) (values : List PackValue) :
    packTokens (first ++ second) values =
      packTokens first values ++ packTokens second (values.drop (first.map Token.taken).sum) := by
  induction first generalizing values with
  | nil => rfl
  | cons token rest ih =>
      cases token with
      | pad count =>
          rw [List.cons_append, packTokens, packTokens, ih, List.append_assoc, List.map_cons, List.sum_cons, Token.taken,
            Nat.zero_add]
      | str size =>
          rw [List.cons_append, packTokens, packTokens, ih, List.append_assoc, List.map_cons, List.sum_cons, Token.taken,
            ← List.drop_one, List.drop_drop]
      | num type count =>
          rw [List.cons_append, packTokens, packTokens, ih, List.append_assoc, List.map_cons, List.sum_cons, Token.taken,
            List.drop_drop]

/-- The fields of one format after another. -/
theorem fieldsOf_append (first second : List Token) (values : List PackValue) :
    fieldsOf (first ++ second) values =
      fieldsOf first values ++ fieldsOf second (values.drop (first.map Token.taken).sum) := by
  induction first generalizing values with
  | nil => rfl
  | cons token rest ih =>
      cases token with
      | pad count =>
          rw [List.cons_append, fieldsOf, fieldsOf, ih, List.map_cons, List.sum_cons, Token.taken, Nat.zero_add]
      | str size =>
          rw [List.cons_append, fieldsOf, fieldsOf, ih, List.cons_append, List.map_cons, List.sum_cons, Token.taken,
            ← List.drop_one, List.drop_drop]
      | num type count =>
          rw [List.cons_append, fieldsOf, fieldsOf, ih, List.append_assoc, List.map_cons, List.sum_cons, Token.taken,
            List.drop_drop]

/-! ## Formats -/

/-- The tokens of the header up to the vehicle block. -/
def headFront : List Token :=
  [.num .uint32 1, .pad 4, .num .uint32 1, .num .uint32 1, .pad 20, .num .uint32 1, .pad 24, .num .uint16 1, .num .uint16 1,
    .num .uint16 1, .num .uint32 1, .str 8, .num .uint16 1, .num .uint16 1, .num .uint32 1, .pad 4, .str 16, .pad 16, .str 16,
    .pad 16, .str 64, .str 64, .pad 64, .str 64, .pad 64, .pad 1024, .num .uint32 1, .pad 66, .str 64, .pad 126]

/-- The tokens of the header. -/
def headTokens : List Token := headFront ++ [.str 64, .str 64]

/-- The tokens of the vehicle block. -/
def vehicleTokens : List Token := [.str 64, .pad 128, .num .uint32 1, .str 32, .str 32]

/-- The tokens of the venue block. -/
def venueTokens : List Token := [.str 64, .pad 1034, .num .uint16 1]

/-- The tokens of the event block. -/
def eventTokens : List Token := [.str 64, .str 64, .str 1024, .num .uint16 1]

theorem parse_headFmt : parseFormat headFmt = some headTokens := by decide

theorem parse_vehicleFmt : parseFormat vehicleFmt = some vehicleTokens := by decide

theorem parse_venueFmt : parseFormat venueFmt = some venueTokens := by decide

theorem parse_eventFmt : parseFormat eventFmt = some eventTokens := by decide

/-- The tokens of a channel header. -/
def chanTokens : List Token :=
  [.num .uint32 1, .num .uint32 1, .num .uint32 1, .num .uint32 1, .num .uint16 1, .num .uint16 1, .num .uint16 1,
    .num .uint16 1, .num .uint16 1, .num .uint16 1, .num .uint16 1, .num .int16 1, .str 32, .str 8, .str 12, .pad 40]

theorem parse_chanFmt : parseFormat chanFmt = some chanTokens := by decide

theorem channelHeaderSize_eq : channelHeaderSize = 124 := by decide

theorem pack_of_parse {fmt : String} {tokens : List Token} (h : parseFormat fmt = some tokens) (values : List PackValue) :
    pack fmt values = packTokens tokens values := by
  rw [pack, h]
  rfl

theorem length_pack {fmt : String} {tokens : List Token} (h : parseFormat fmt = some tokens) (values : List PackValue) :
    (pack fmt values).length = sizeOf tokens := by
  rw [pack_of_parse h, length_packTokens]

/-- **A block in a file** reads back as what was packed. -/
theorem unpack_of_slice {fmt : String} {tokens : List Token} (h : parseFormat fmt = some tokens) {file : List U8} {place : ℕ}
    {values : List PackValue} (hfits : place + sizeOf tokens ≤ file.length)
    (hslice : slice file place (sizeOf tokens) = pack fmt values) : unpack fmt file place = some (fieldsOf tokens values) := by
  unfold unpack
  rw [h, Option.bind_some, if_pos hfits, hslice, pack_of_parse h]
  have := unpackTokens_packTokens tokens values []
  rw [List.append_nil] at this
  rw [this]

/-! ## Channels -/

/-- The bytes of the samples before a channel. -/
def dataOffset (cs : List Channel) (k : ℕ) : ℕ := 4 * ((cs.take k).map fun c => c.samples.length).sum

theorem length_data (c : Channel) : c.data.length = 4 * c.samples.length := by
  unfold Channel.data
  induction c.samples with
  | nil => rfl
  | cons s rest ih =>
      rw [List.map_cons, List.flatten_cons, List.length_append, length_le, ih, List.length_cons]
      ring

/-- The samples of a channel are behind those of the channels before it. -/
theorem dataOffset_succ {cs : List Channel} {k : ℕ} {c : Channel} (hk : cs[k]? = some c) :
    dataOffset cs (k + 1) = dataOffset cs k + 4 * c.samples.length := by
  unfold dataOffset
  rw [List.take_add_one, hk, Option.toList_some, List.map_append, List.sum_append, List.map_singleton, List.sum_singleton]
  ring

theorem dataOffset_mono (cs : List Channel) : Monotone (dataOffset cs) := by
  refine monotone_nat_of_le_succ fun k => ?_
  cases hk : cs[k]? with
  | none =>
      have hlen : cs.length ≤ k := List.getElem?_eq_none_iff.mp hk
      rw [dataOffset, dataOffset, List.take_of_length_le hlen, List.take_of_length_le (by omega)]
  | some c =>
      rw [dataOffset_succ hk]
      exact Nat.le_add_right _ _

theorem length_channelHeader (n index metaPtr dataPtr : ℕ) (c : Channel) :
    (channelHeader n index metaPtr dataPtr c).length = 124 := by
  unfold channelHeader
  rw [length_pack parse_chanFmt]
  decide

/-- **The header and the data of each channel.** -/
theorem channelBlocks_getElem? (n index metaPtr dataPtr : ℕ) (cs : List Channel) (k : ℕ) :
    (channelBlocks n index metaPtr dataPtr cs)[k]? = cs[k]?.map fun c =>
      (channelHeader n (index + k) (metaPtr + k * channelHeaderSize) (dataPtr + dataOffset cs k) c, c.data) := by
  induction cs generalizing index metaPtr dataPtr k with
  | nil => rfl
  | cons c rest ih =>
      cases k with
      | zero => simp [channelBlocks, dataOffset]
      | succ k =>
          have hindex : index + 1 + k = index + (k + 1) := by ring
          have hmeta : metaPtr + channelHeaderSize + k * channelHeaderSize = metaPtr + (k + 1) * channelHeaderSize := by ring
          have hdata : dataPtr + c.data.length + dataOffset rest k = dataPtr + dataOffset (c :: rest) (k + 1) := by
            rw [length_data, dataOffset, dataOffset, List.take_succ_cons, List.map_cons, List.sum_cons]
            ring
          rw [channelBlocks, List.getElem?_cons_succ, ih, hindex, hmeta, hdata, List.getElem?_cons_succ]

theorem take_channelBlocks (n index metaPtr dataPtr k : ℕ) (cs : List Channel) :
    (channelBlocks n index metaPtr dataPtr cs).take k = channelBlocks n index metaPtr dataPtr (cs.take k) := by
  induction cs generalizing index metaPtr dataPtr k with
  | nil => rw [channelBlocks, List.take_nil, List.take_nil, channelBlocks]
  | cons c rest ih =>
      cases k with
      | zero => rfl
      | succ k => rw [channelBlocks, List.take_succ_cons, List.take_succ_cons, channelBlocks, ih]

/-- The bytes of the headers. -/
theorem length_headers (n index metaPtr dataPtr : ℕ) (cs : List Channel) :
    ((channelBlocks n index metaPtr dataPtr cs).map (·.1)).flatten.length = cs.length * 124 := by
  induction cs generalizing index metaPtr dataPtr with
  | nil => rfl
  | cons c rest ih =>
      rw [channelBlocks, List.map_cons, List.flatten_cons, List.length_append, length_channelHeader, ih, List.length_cons]
      ring

/-- The bytes of the data. -/
theorem length_datas (n index metaPtr dataPtr : ℕ) (cs : List Channel) :
    ((channelBlocks n index metaPtr dataPtr cs).map (·.2)).flatten.length = 4 * (cs.map fun c => c.samples.length).sum := by
  induction cs generalizing index metaPtr dataPtr with
  | nil => rfl
  | cons c rest ih =>
      rw [channelBlocks, List.map_cons, List.flatten_cons, List.length_append, length_data, ih, List.map_cons, List.sum_cons]
      ring

/-! ## The file -/

section File

variable (log : DataLog) (metadata : String → Option String) (d : UtcDate) (parseInt : String → ℤ)

/-- The place of the header of a channel. -/
def metaPlace (k : ℕ) : ℕ := headerPtr + k * channelHeaderSize

/-- The place of the data of a channel. -/
def DataLog.dataPlace (k : ℕ) : ℕ := headerPtr + log.written.length * channelHeaderSize + dataOffset log.written k

/-- The headers and the data of a log's channels. -/
def DataLog.blocks : List (List U8 × List U8) :=
  channelBlocks log.written.length 0 headerPtr (headerPtr + log.written.length * channelHeaderSize) log.written

/-- The bytes of a log's file. -/
def DataLog.total : ℕ := log.dataPlace log.written.length

theorem total_eq :
    log.total = headerPtr + log.written.length * channelHeaderSize + dataOffset log.written log.written.length := rfl

/-- The file with its fixed blocks only. -/
def fixedBlocks : List U8 :=
  copy (copy (copy (copy (List.replicate log.total 0) 0 (headerBlock log metadata d)) vehiclePtr
    (vehicleBlock metadata parseInt)) venuePtr (venueBlock metadata)) eventPtr (eventBlock metadata)

theorem length_headerBlock : (headerBlock log metadata d).length = 1890 := by
  rw [headerBlock, length_pack parse_headFmt]
  rfl

theorem length_vehicleBlock : (vehicleBlock metadata parseInt).length = 260 := by
  rw [vehicleBlock, length_pack parse_vehicleFmt]
  rfl

theorem length_venueBlock : (venueBlock metadata).length = 1100 := by
  rw [venueBlock, length_pack parse_venueFmt]
  rfl

theorem length_eventBlock : (eventBlock metadata).length = 1154 := by
  rw [eventBlock, length_pack parse_eventFmt]
  rfl

theorem length_headerBytes : (log.blocks.map (·.1)).flatten.length = log.written.length * channelHeaderSize := by
  rw [DataLog.blocks, length_headers, channelHeaderSize_eq]

theorem length_dataBytes : (log.blocks.map (·.2)).flatten.length = dataOffset log.written log.written.length := by
  rw [DataLog.blocks, length_datas, dataOffset, List.take_length]

theorem headerPtr_le_total : headerPtr ≤ log.total := by
  unfold DataLog.total DataLog.dataPlace
  omega

/-- **The four blocks** in a file: the vehicle block is over the end of the header. -/
theorem slice_fixedBlocks :
    (fixedBlocks log metadata d parseInt).length = log.total ∧
      slice (fixedBlocks log metadata d parseInt) 0 vehiclePtr = slice (headerBlock log metadata d) 0 vehiclePtr ∧
      slice (fixedBlocks log metadata d parseInt) vehiclePtr 260 = vehicleBlock metadata parseInt ∧
      slice (fixedBlocks log metadata d parseInt) venuePtr 1100 = venueBlock metadata ∧
      slice (fixedBlocks log metadata d parseInt) eventPtr 1154 = eventBlock metadata := by
  have htotal : 11336 ≤ log.total := headerPtr_le_total log
  have hzeros : (List.replicate log.total (0 : U8)).length = log.total := List.length_replicate
  have ha := length_headerBlock log metadata d
  have hb := length_vehicleBlock metadata parseInt
  have hc := length_venueBlock metadata
  have he := length_eventBlock metadata
  unfold fixedBlocks vehiclePtr venuePtr eventPtr
  generalize List.replicate log.total (0 : U8) = file at hzeros ⊢
  generalize headerBlock log metadata d = a at ha ⊢
  generalize vehicleBlock metadata parseInt = b at hb ⊢
  generalize venueBlock metadata = c at hc ⊢
  generalize eventBlock metadata = e at he ⊢
  have h1 : (copy file 0 a).length = log.total := by rw [length_copy (by omega), hzeros]
  have h2 : (copy (copy file 0 a) 1762 b).length = log.total := by rw [length_copy (by omega), h1]
  have h3 : (copy (copy (copy file 0 a) 1762 b) 5078 c).length = log.total := by rw [length_copy (by omega), h2]
  have hheader : slice (copy file 0 a) (0 + 0) 1762 = slice a 0 1762 := slice_copy (by omega) (by omega)
  have hvehicle : slice (copy (copy file 0 a) 1762 b) 1762 b.length = b := slice_copy_self (by omega)
  have hvenue : slice (copy (copy (copy file 0 a) 1762 b) 5078 c) 5078 c.length = c := slice_copy_self (by omega)
  have hevent : slice (copy (copy (copy (copy file 0 a) 1762 b) 5078 c) 8180 e) 8180 e.length = e :=
    slice_copy_self (by omega)
  rw [hb] at hvehicle
  rw [hc] at hvenue
  rw [he] at hevent
  refine ⟨?_, ?_, ?_, ?_, hevent⟩
  · rw [length_copy (by omega), h3]
  · rw [slice_copy_of_disjoint (by omega) (by omega), slice_copy_of_disjoint (by omega) (by omega),
      slice_copy_of_disjoint (by omega) (by omega), hheader]
  · rw [slice_copy_of_disjoint (by omega) (by omega), slice_copy_of_disjoint (by omega) (by omega), hvehicle]
  · rw [slice_copy_of_disjoint (by omega) (by omega), hvenue]

/-- The file with its fixed blocks and its headers. -/
def headedFile : List U8 :=
  copy (fixedBlocks log metadata d parseInt) headerPtr (log.blocks.map (·.1)).flatten

/-- The data ends where the file does. -/
theorem data_end : headerPtr + log.written.length * channelHeaderSize + (log.blocks.map (·.2)).flatten.length = log.total := by
  rw [length_dataBytes, total_eq]

/-- The headers end where the data starts, within the file. -/
theorem headers_fit :
    headerPtr + (log.blocks.map (·.1)).flatten.length ≤ (fixedBlocks log metadata d parseInt).length := by
  rw [length_headerBytes, (slice_fixedBlocks log metadata d parseInt).1, ← data_end]
  exact Nat.le_add_right _ _

theorem length_headedFile : (headedFile log metadata d parseInt).length = log.total := by
  rw [headedFile, length_copy (headers_fit log metadata d parseInt), (slice_fixedBlocks log metadata d parseInt).1]

theorem data_fit : headerPtr + log.written.length * channelHeaderSize + (log.blocks.map (·.2)).flatten.length ≤
    (headedFile log metadata d parseInt).length := by
  rw [length_headedFile, data_end]

/-- **A written file**: the fixed blocks, then the headers, then the data. -/
theorem writeLd_eq : writeLd log metadata d parseInt =
    copy (headedFile log metadata d parseInt) (headerPtr + log.written.length * channelHeaderSize)
      (log.blocks.map (·.2)).flatten := by
  have hsum (blocks : List (List U8)) : (blocks.map List.length).sum = blocks.flatten.length := List.length_flatten.symm
  have hdata := data_fit log metadata d parseInt
  unfold writeLd
  dsimp only
  rw [← DataLog.blocks, hsum, hsum, data_end, ← fixedBlocks, copyAll_eq _ _ _ (headers_fit log metadata d parseInt),
    ← headedFile, length_headerBytes, copyAll_eq _ _ _ hdata]

theorem length_writeLd : (writeLd log metadata d parseInt).length = log.total := by
  rw [writeLd_eq, length_copy (data_fit log metadata d parseInt), length_headedFile]

/-- **Before the data** a file is the fixed blocks and the headers. -/
theorem slice_writeLd_headed {place n : ℕ} (h : place + n ≤ headerPtr + log.written.length * channelHeaderSize) :
    slice (writeLd log metadata d parseInt) place n = slice (headedFile log metadata d parseInt) place n := by
  rw [writeLd_eq, slice_copy_of_disjoint (data_fit log metadata d parseInt) (.inl h)]

/-- **Before the channels** a file is the fixed blocks. -/
theorem slice_writeLd_fixed {place n : ℕ} (h : place + n ≤ headerPtr) :
    slice (writeLd log metadata d parseInt) place n = slice (fixedBlocks log metadata d parseInt) place n := by
  rw [slice_writeLd_headed log metadata d parseInt (by omega), headedFile,
    slice_copy_of_disjoint (headers_fit log metadata d parseInt) (.inl h)]

/-- A block of the headers or of the data, found by its index. -/
theorem slice_part (part : List U8 × List U8 → List U8) {k : ℕ} {c : Channel} (hk : log.written[k]? = some c) :
    slice (log.blocks.map part).flatten ((log.blocks.take k).map part).flatten.length
        (part (channelHeader log.written.length k (metaPlace k) (log.dataPlace k) c, c.data)).length =
      part (channelHeader log.written.length k (metaPlace k) (log.dataPlace k) c, c.data) := by
  have hget : (log.blocks.map part)[k]? =
      some (part (channelHeader log.written.length k (metaPlace k) (log.dataPlace k) c, c.data)) := by
    rw [List.getElem?_map, DataLog.blocks, channelBlocks_getElem?, hk, Nat.zero_add]
    rfl
  obtain ⟨hlt, hblock⟩ := List.getElem?_eq_some_iff.mp hget
  have hslice := slice_flatten hlt
  rw [hblock, ← List.map_take] at hslice
  exact hslice

/-- **The header of a channel** is at its place. -/
theorem slice_writeLd_header {k : ℕ} {c : Channel} (hk : log.written[k]? = some c) :
    slice (writeLd log metadata d parseInt) (metaPlace k) 124 =
      channelHeader log.written.length k (metaPlace k) (log.dataPlace k) c := by
  have hindex : k < log.written.length := (List.getElem?_eq_some_iff.mp hk).1
  have hbefore : ((log.blocks.take k).map (·.1)).flatten.length = k * 124 := by
    rw [DataLog.blocks, take_channelBlocks, length_headers, List.length_take, Nat.min_eq_left hindex.le]
  have hpart := slice_part log (·.1) hk
  rw [hbefore, length_channelHeader] at hpart
  have hheaders := length_headerBytes log
  rw [channelHeaderSize_eq] at hheaders
  rw [slice_writeLd_headed log metadata d parseInt (by rw [metaPlace, channelHeaderSize_eq]; omega), headedFile, metaPlace,
    channelHeaderSize_eq, slice_copy (headers_fit log metadata d parseInt) (by omega), hpart, metaPlace, channelHeaderSize_eq]

/-- **The data of a channel** is at its place. -/
theorem slice_writeLd_data {k : ℕ} {c : Channel} (hk : log.written[k]? = some c) :
    slice (writeLd log metadata d parseInt) (log.dataPlace k) (4 * c.samples.length) = c.data := by
  have hindex : k < log.written.length := (List.getElem?_eq_some_iff.mp hk).1
  have hbefore : ((log.blocks.take k).map (·.2)).flatten.length = dataOffset log.written k := by
    rw [DataLog.blocks, take_channelBlocks, length_datas, dataOffset]
  have hend : dataOffset log.written k + 4 * c.samples.length ≤ dataOffset log.written log.written.length := by
    rw [← dataOffset_succ hk]
    exact dataOffset_mono log.written hindex
  have hpart := slice_part log (·.2) hk
  rw [hbefore, length_data] at hpart
  have hdata := length_dataBytes log
  rw [writeLd_eq, DataLog.dataPlace, slice_copy (data_fit log metadata d parseInt) (by omega), hpart]

/-! ## Reading the blocks -/

/-- **The vehicle block** reads back. -/
theorem unpack_vehicle :
    unpack vehicleFmt (writeLd log metadata d parseInt) vehiclePtr =
      some (fieldsOf vehicleTokens (vehicleValues metadata parseInt)) := by
  refine unpack_of_slice parse_vehicleFmt ?_ ?_
  · rw [length_writeLd]
    exact le_trans (by decide) (headerPtr_le_total log)
  · rw [slice_writeLd_fixed log metadata d parseInt (by decide)]
    exact (slice_fixedBlocks log metadata d parseInt).2.2.1

/-- **The venue block** reads back. -/
theorem unpack_venue :
    unpack venueFmt (writeLd log metadata d parseInt) venuePtr = some (fieldsOf venueTokens (venueValues metadata)) := by
  refine unpack_of_slice parse_venueFmt ?_ ?_
  · rw [length_writeLd]
    exact le_trans (by decide) (headerPtr_le_total log)
  · rw [slice_writeLd_fixed log metadata d parseInt (by decide)]
    exact (slice_fixedBlocks log metadata d parseInt).2.2.2.1

/-- **The event block** reads back. -/
theorem unpack_event :
    unpack eventFmt (writeLd log metadata d parseInt) eventPtr = some (fieldsOf eventTokens (eventValues metadata)) := by
  refine unpack_of_slice parse_eventFmt ?_ ?_
  · rw [length_writeLd]
    exact le_trans (by decide) (headerPtr_le_total log)
  · rw [slice_writeLd_fixed log metadata d parseInt (by decide)]
    exact (slice_fixedBlocks log metadata d parseInt).2.2.2.2

/-- **The header** reads back up to the vehicle block, and there as the start of that block. -/
theorem unpack_header :
    unpack headFmt (writeLd log metadata d parseInt) 0 = some (fieldsOf headFront (headerValues log metadata d) ++
      [.text (textField 64 (fixed ((metadata "vehicle_id").getD "Orion") 64)), .text (List.replicate 64 0)]) := by
  have hfits : 0 + sizeOf headTokens ≤ (writeLd log metadata d parseInt).length := by
    rw [length_writeLd]
    exact le_trans (by decide) (headerPtr_le_total log)
  have hblocks := slice_fixedBlocks log metadata d parseInt
  have hvehicle : vehicleBlock metadata parseInt = textField 64 (fixed ((metadata "vehicle_id").getD "Orion") 64) ++
      (List.replicate 64 0 ++ (List.replicate 64 0 ++
        packTokens [.num .uint32 1, .str 32, .str 32] (vehicleValues metadata parseInt).tail)) := by
    rw [vehicleBlock, pack_of_parse parse_vehicleFmt]
    have hzeros : List.replicate 128 (0 : U8) = List.replicate 64 0 ++ List.replicate 64 0 := by
      rw [List.replicate_append_replicate]
    rw [← List.append_assoc (List.replicate 64 0), ← hzeros]
    rfl
  have hfront : slice (writeLd log metadata d parseInt) 0 1762 = packTokens headFront (headerValues log metadata d) := by
    have hlen : (packTokens headFront (headerValues log metadata d)).length = 1762 := by
      rw [length_packTokens]
      rfl
    have hinside : slice (fixedBlocks log metadata d parseInt) 0 1762 = slice (headerBlock log metadata d) 0 1762 :=
      hblocks.2.1
    rw [slice_writeLd_fixed log metadata d parseInt (by decide), hinside, headerBlock, pack_of_parse parse_headFmt, headTokens,
      packTokens_append, ← hlen, slice_append_left]
  have hback : slice (writeLd log metadata d parseInt) 1762 128 =
      textField 64 (fixed ((metadata "vehicle_id").getD "Orion") 64) ++ List.replicate 64 0 := by
    have hinside : slice (slice (fixedBlocks log metadata d parseInt) 1762 260) 0 128 =
        slice (fixedBlocks log metadata d parseInt) (1762 + 0) 128 := slice_slice (by decide)
    have hblock : slice (fixedBlocks log metadata d parseInt) 1762 260 = vehicleBlock metadata parseInt := hblocks.2.2.1
    have hlen :
        (textField 64 (fixed ((metadata "vehicle_id").getD "Orion") 64) ++ List.replicate 64 (0 : U8)).length = 128 := by
      rw [List.length_append, length_textField, List.length_replicate]
    rw [slice_writeLd_fixed log metadata d parseInt (by decide), ← Nat.add_zero 1762, ← hinside, hblock, hvehicle,
      ← List.append_assoc, ← hlen, slice_append_left]
  have hsplit : slice (writeLd log metadata d parseInt) 0 (1762 + 128) =
      slice (writeLd log metadata d parseInt) 0 1762 ++ slice (writeLd log metadata d parseInt) (0 + 1762) 128 :=
    slice_add _ 0 1762 128
  have hsize : sizeOf headTokens = 1762 + 128 := rfl
  have hfrontSize : sizeOf headFront = (packTokens headFront (headerValues log metadata d)).length := by
    rw [length_packTokens]
  have htext : (textField 64 (fixed ((metadata "vehicle_id").getD "Orion") 64)).length = 64 := length_textField _ _
  unfold unpack
  rw [parse_headFmt, Option.bind_some, if_pos hfits, hsize, hsplit, Nat.zero_add, hfront, hback, headTokens,
    unpackTokens_append, unpackTokens_packTokens, hfrontSize, List.drop_left, unpackTokens, List.take_left' htext,
    List.drop_left' htext]
  rfl

/-- **The header of a channel** reads back. -/
theorem unpack_channel {k : ℕ} {c : Channel} (hk : log.written[k]? = some c) :
    unpack chanFmt (writeLd log metadata d parseInt) (metaPlace k) =
      some (fieldsOf chanTokens (channelValues log.written.length k (metaPlace k) (log.dataPlace k) c)) := by
  have hindex : k < log.written.length := (List.getElem?_eq_some_iff.mp hk).1
  have hsize : sizeOf chanTokens = 124 := rfl
  refine unpack_of_slice parse_chanFmt ?_ ?_
  · rw [length_writeLd, DataLog.total, DataLog.dataPlace, metaPlace, hsize, channelHeaderSize_eq]
    omega
  · rw [hsize]
    exact slice_writeLd_header log metadata d parseInt hk

end File

end Lhre.Motec
