import Lhre.Motec.LdFile

/-!
# `Motec.Correctness.LdRoundTrip` — the channels of a written file

A reader starts at the channel pointer of the header, follows the pointer to the next header until it is 0, and reads the
floats at each channel's data pointer. From a file with a channel it gets back the channels that have samples. A file without
one has a channel pointer all the same, and nothing is there to be read.

## Contents
- **The reader.** `LdChannel`, `readSamples`, `readChannel`, `readChannels`, `readLd`.
- **What is expected.** `DataLog.ldChannel`, `stored`, `Linked`, `Contiguous`.
- **One channel.** `readSamples_writeLd`, `readChannel_writeLd`.
- **All of them.** `readChannels_writeLd`, and `channels_round_trip`.
-/

namespace Lhre.Motec

open ByteFile

/-! ## The reader -/

/-- A channel as it is read, with the place of its header. -/
structure LdChannel where
  place : ℕ
  prev : ℕ
  next : ℕ
  data : ℕ
  count : ℕ
  freq : ℤ
  name : List U8
  quantity : List U8
  unit : List U8
  samples : List (Option ℚ)
deriving DecidableEq

/-- The floats from a place on. -/
def readSamples (file : List U8) (place count : ℕ) : List (Option ℚ) :=
  (List.range count).map fun i => Float32.value (ofLe (slice file (place + 4 * i) 4))

/-- The channel whose header is at a place, unless the file ends before its header or its data do. -/
def readChannel (file : List U8) (place : ℕ) : Option LdChannel :=
  (unpack chanFmt file place).bind fun fields =>
    match fields with
    | [.num prev, .num next, .num data, .num count, .num _, .num _, .num _, .num freq, .num _, .num _, .num _, .num _,
        .text name, .text quantity, .text unit] =>
        if data.toNat + 4 * count.toNat ≤ file.length then
          some { place, prev := prev.toNat, next := next.toNat, data := data.toNat, count := count.toNat, freq, name,
                 quantity, unit, samples := readSamples file data.toNat count.toNat }
        else none
    | _ => none

/-- The channels from a pointer on, at most as many as there is fuel for. -/
def readChannels (file : List U8) : (fuel pointer : ℕ) → Option (List LdChannel)
  | _, 0 => some []
  | 0, _ + 1 => none
  | fuel + 1, pointer + 1 =>
      (readChannel file (pointer + 1)).bind fun c => (readChannels file fuel c.next).map (c :: ·)

/-- The channels of a file. -/
def readLd (file : List U8) : Option (List LdChannel) :=
  (unpack headFmt file 0).bind fun fields =>
    match fields with
    | .num _ :: .num channels :: _ => readChannels file file.length channels.toNat
    | _ => none

/-- A text up to its first zero. -/
def cString (bytes : List U8) : List Char := (bytes.takeWhile (· ≠ 0)).map fun b => Char.ofNat b.toNat

/-! ## What is expected -/

/-- The channel that is written at an index. -/
def DataLog.ldChannel (log : DataLog) (k : ℕ) (c : Channel) : LdChannel :=
  { place := metaPlace k
    prev := if k = 0 then 0 else metaPlace (k - 1)
    next := if k + 1 = log.written.length then 0 else metaPlace (k + 1)
    data := log.dataPlace k
    count := c.samples.length
    freq := max 1 (mathRound c.averageFrequency)
    name := textField 32 (fixed c.name 32)
    quantity := textField 8 (fixed c.quantity 8)
    unit := textField 12 (fixed c.unit 12)
    samples := c.samples.map (·.value) }

/-- The number that is read back for a sample. -/
def stored (value : Option ℚ) : Option ℚ := Float32.value (ofLe (le 4 (Float32.encode (cleanFloat value))))

/-- The channel that is read back at an index. -/
def DataLog.storedChannel (log : DataLog) (k : ℕ) (c : Channel) : LdChannel :=
  { log.ldChannel k c with samples := c.samples.map fun s => stored s.value }

/-- The pointers to the next header and to the one before mirror each other, and are 0 at the ends. -/
structure Linked (channels : List LdChannel) : Prop where
  mirror : channels.IsChain fun a b => a.next = b.place ∧ b.prev = a.place
  first : ∀ c ∈ channels.head?, c.prev = 0
  last : ∀ c ∈ channels.getLast?, c.next = 0

/-- The data of the channels follow one another without a gap and end where the file does. -/
structure Contiguous (size : ℕ) (channels : List LdChannel) : Prop where
  adjacent : channels.IsChain fun a b => a.data + 4 * a.count = b.data
  disjoint : channels.Pairwise fun a b => a.data + 4 * a.count ≤ b.data
  behindHeaders : ∀ a ∈ channels, ∀ b ∈ channels, a.place + channelHeaderSize ≤ b.data
  ends : ∀ c ∈ channels.getLast?, c.data + 4 * c.count = size

/-- A number that a float holds and that `cleanFloat` keeps. -/
def Storable (value : Option ℚ) : Prop := ∃ bits v, Float32.value bits = some v ∧ value = some v ∧ |v| ≤ floatLimit

/-! ## One channel -/

theorem wrap_of_lt {type : NumType} (hunsigned : type.signed = false) {v : ℤ} (h : 0 ≤ v) (hlt : v < 256 ^ type.width) :
    type.wrap v = v := by
  rw [NumType.wrap, hunsigned, if_neg (by decide), Int.emod_eq_of_lt h hlt]

/-- A storable sample is written as its own float. -/
theorem stored_of_storable {value : Option ℚ} (h : Storable value) : stored value = value := by
  obtain ⟨bits, v, hbits, rfl, hle⟩ := h
  obtain ⟨hlow, hhigh⟩ := abs_le.mp hle
  have hclean : cleanFloat (some v) = v := by rw [cleanFloat, min_eq_right hhigh, max_eq_right hlow]
  have hfits : Float32.encode v % 256 ^ 4 = Float32.encode v := Nat.mod_eq_of_lt (Float32.encode_lt v)
  rw [stored, ofLe_le, hclean, hfits, Float32.value_encode hbits]

/-- A sample of a channel is at its place in the channel's data. -/
theorem slice_data {c : Channel} {i : ℕ} {s : Sample} (hi : c.samples[i]? = some s) :
    slice c.data (4 * i) 4 = le 4 (Float32.encode (cleanFloat s.value)) := by
  have hget : (c.samples.map fun s => le 4 (Float32.encode (cleanFloat s.value)))[i]? =
      some (le 4 (Float32.encode (cleanFloat s.value))) := by
    rw [List.getElem?_map, hi]
    rfl
  have hbefore (samples : List Sample) :
      ((samples.map fun s => le 4 (Float32.encode (cleanFloat s.value))).flatten).length = 4 * samples.length :=
    length_data ⟨"", "", "", samples⟩
  obtain ⟨hlt, hblock⟩ := List.getElem?_eq_some_iff.mp hget
  have hindex : i < c.samples.length := (List.getElem?_eq_some_iff.mp hi).1
  have hslice := slice_flatten hlt
  rw [hblock, length_le, ← List.map_take, hbefore, List.length_take, Nat.min_eq_left hindex.le] at hslice
  exact hslice

section File

variable (log : DataLog) (metadata : String → Option String) (d : UtcDate) (parseInt : String → ℤ)

/-- **The samples of a channel** read back. -/
theorem readSamples_writeLd {k : ℕ} {c : Channel} (hk : log.written[k]? = some c) :
    readSamples (writeLd log metadata d parseInt) (log.dataPlace k) c.samples.length =
      c.samples.map fun s => stored s.value := by
  refine List.ext_getElem? fun i => ?_
  unfold readSamples
  rw [List.getElem?_map, List.getElem?_map]
  rcases Nat.lt_or_ge i c.samples.length with hi | hi
  · have hget : c.samples[i]? = some c.samples[i] := List.getElem?_eq_getElem hi
    have hinside : slice (slice (writeLd log metadata d parseInt) (log.dataPlace k) (4 * c.samples.length)) (4 * i) 4 =
        slice (writeLd log metadata d parseInt) (log.dataPlace k + 4 * i) 4 := slice_slice (by omega)
    rw [List.getElem?_range hi, hget, Option.map_some, Option.map_some, ← hinside,
      slice_writeLd_data log metadata d parseInt hk, slice_data hget]
    rfl
  · rw [List.getElem?_eq_none (by rw [List.length_range]; exact hi), List.getElem?_eq_none hi]
    rfl

/-- The frequency of a channel: one that has none counts as 1. -/
theorem freq_eq (c : Channel) : c.freq = max 1 (mathRound c.averageFrequency) := by
  unfold Channel.freq
  split
  · rename_i hzero
    rw [hzero]
    norm_num [mathRound]
  · rfl

/-- A written channel is inside the file. -/
theorem place_le_total {k : ℕ} {c : Channel} (hk : log.written[k]? = some c) :
    metaPlace k + channelHeaderSize ≤ log.dataPlace k ∧ log.dataPlace k + 4 * c.samples.length ≤ log.total := by
  have hindex : k < log.written.length := (List.getElem?_eq_some_iff.mp hk).1
  have hmono := dataOffset_mono log.written (Nat.succ_le_of_lt hindex)
  rw [Nat.succ_eq_add_one, dataOffset_succ hk] at hmono
  have htotal := total_eq log
  unfold metaPlace DataLog.dataPlace
  rw [channelHeaderSize_eq] at htotal ⊢
  omega

/-- A number of 32 bits is written as it is. -/
theorem wrap_uint32 {n : ℕ} (hn : n < 2 ^ 32) : NumType.uint32.wrap (n : ℤ) = n := by
  refine wrap_of_lt rfl (by omega) ?_
  rw [NumType.width]
  omega

/-- The pointer to the header before. -/
theorem wrap_prevPtr {k : ℕ} (hplace : metaPlace k < 2 ^ 32) :
    NumType.uint32.wrap ((if k = 0 then 0 else metaPlace k - channelHeaderSize : ℕ) : ℤ) =
      ((if k = 0 then 0 else metaPlace (k - 1) : ℕ) : ℤ) := by
  have heq : (if k = 0 then 0 else metaPlace k - channelHeaderSize) = if k = 0 then 0 else metaPlace (k - 1) := by
    split
    · rfl
    · rw [metaPlace, metaPlace, channelHeaderSize_eq]
      omega
  rw [heq]
  refine wrap_uint32 ?_
  rw [metaPlace, channelHeaderSize_eq] at hplace
  split
  · decide
  · rw [metaPlace, channelHeaderSize_eq]
    omega

/-- The pointer to the header after. -/
theorem wrap_nextPtr {k n : ℕ} (hk : k < n) (hplace : metaPlace n < 2 ^ 32) :
    NumType.uint32.wrap ((if k = n - 1 then 0 else metaPlace k + channelHeaderSize : ℕ) : ℤ) =
      ((if k + 1 = n then 0 else metaPlace (k + 1) : ℕ) : ℤ) := by
  have heq : (if k = n - 1 then 0 else metaPlace k + channelHeaderSize) = if k + 1 = n then 0 else metaPlace (k + 1) := by
    have hlast : k = n - 1 ↔ k + 1 = n := by omega
    simp only [hlast, metaPlace]
    split
    · rfl
    · ring
  rw [heq]
  refine wrap_uint32 ?_
  rw [metaPlace, channelHeaderSize_eq] at hplace
  split
  · decide
  · rw [metaPlace, channelHeaderSize_eq]
    omega

/-- **A channel** reads back. -/
theorem readChannel_writeLd (hsize : log.total < 2 ^ 32) {k : ℕ} {c : Channel} (hk : log.written[k]? = some c)
    (hfreq : mathRound c.averageFrequency < 65536) :
    readChannel (writeLd log metadata d parseInt) (metaPlace k) = some (log.storedChannel k c) := by
  have hindex : k < log.written.length := (List.getElem?_eq_some_iff.mp hk).1
  have hfits := place_le_total log hk
  have hheaders : metaPlace log.written.length ≤ log.dataPlace k := by
    rw [metaPlace, DataLog.dataPlace]
    exact Nat.le_add_right _ _
  -- every pointer is a place in the file, so none of them wraps
  have hmeta : metaPlace k ≤ metaPlace log.written.length := by
    rw [metaPlace, metaPlace]
    exact Nat.add_le_add_left (Nat.mul_le_mul_right _ hindex.le) _
  have hlength : log.dataPlace k + 4 * c.samples.length ≤ (writeLd log metadata d parseInt).length := by
    rw [length_writeLd]
    exact hfits.2
  have hprev := @wrap_prevPtr k (by omega)
  have hnext := wrap_nextPtr hindex (by omega)
  have hpointer : NumType.uint32.wrap (log.dataPlace k : ℤ) = log.dataPlace k := wrap_uint32 (by omega)
  have hcount : NumType.uint32.wrap (c.samples.length : ℤ) = c.samples.length := wrap_uint32 (by omega)
  have hrate : NumType.uint16.wrap c.freq = c.freq := by
    refine wrap_of_lt rfl ?_ ?_
    · exact le_trans (by decide) (le_max_left 1 _)
    · rw [freq_eq, NumType.width]
      exact max_lt (by decide) hfreq
  have hfields : fieldsOf chanTokens (channelValues log.written.length k (metaPlace k) (log.dataPlace k) c) =
      [.num (if k = 0 then 0 else metaPlace (k - 1) : ℕ),
        .num (if k + 1 = log.written.length then 0 else metaPlace (k + 1) : ℕ), .num (log.dataPlace k),
        .num c.samples.length, .num (NumType.uint16.wrap (0x2ee1 + k)), .num 7, .num 4, .num c.freq, .num 0, .num 1, .num 1,
        .num 0, .text (textField 32 (fixed c.name 32)), .text (textField 8 (fixed c.quantity 8)),
        .text (textField 12 (fixed c.unit 12))] := by
    rw [← hprev, ← hnext]
    conv_rhs => rw [← hpointer, ← hcount, ← hrate]
    rfl
  unfold readChannel
  rw [unpack_channel log metadata d parseInt hk, hfields, Option.bind_some]
  simp only [Int.toNat_natCast]
  rw [if_pos hlength, readSamples_writeLd log metadata d parseInt hk, freq_eq]
  rfl

end File

/-! ## Texts -/

theorem toNat_lt_of_mem_fixed {text : String} {size : ℕ} {c : Char} (h : c ∈ fixed text size) : c.toNat < 128 := by
  have hmem : c ∈ text.toList.filter fun c => decide (c.toNat < 128) := by
    unfold fixed at h
    dsimp only at h
    split at h
    · exact List.mem_of_mem_take h
    · exact h
  exact of_decide_eq_true (List.mem_filter.mp hmem).2

theorem length_fixed_lt (text : String) {size : ℕ} (h : 0 < size) : (fixed text size).length < size := by
  unfold fixed
  dsimp only
  split
  · rw [List.length_take]
    omega
  · omega

/-- **A text with no zeros** is read as it was fixed. -/
theorem cString_fixed (text : String) {size : ℕ} (h : 0 < size) (hzero : ∀ c ∈ fixed text size, c.toNat ≠ 0) :
    cString (textField size (fixed text size)) = fixed text size := by
  have hlen : (asciiBytes (fixed text size)).length = (fixed text size).length := List.length_map _
  have hlt := length_fixed_lt text h
  have hbytes : textField size (fixed text size) =
      asciiBytes (fixed text size) ++ 0 :: List.replicate (size - (fixed text size).length - 1) 0 := by
    have hpad : size - (fixed text size).length = size - (fixed text size).length - 1 + 1 := by omega
    rw [textField, List.take_of_length_le (by omega), hlen, ← List.replicate_succ, ← hpad]
  have hbyte : ∀ c ∈ fixed text size, (BitVec.ofNat 8 c.toNat).toNat = c.toNat := fun c hc => by
    rw [BitVec.toNat_ofNat]
    exact Nat.mod_eq_of_lt (lt_trans (toNat_lt_of_mem_fixed hc) (by decide))
  have hnonzero : ∀ b ∈ asciiBytes (fixed text size), decide (b ≠ 0) = true := by
    intro b hb
    obtain ⟨c, hc, rfl⟩ := List.mem_map.mp hb
    refine decide_eq_true fun heq => hzero c hc ?_
    rw [← hbyte c hc, heq]
    rfl
  have htake : (textField size (fixed text size)).takeWhile (· ≠ 0) = asciiBytes (fixed text size) := by
    rw [hbytes, List.takeWhile_append_of_pos hnonzero, List.takeWhile_cons_of_neg (by decide), List.append_nil]
  rw [cString, htake, asciiBytes, List.map_map]
  refine (List.map_congr_left fun c hc => ?_).trans (List.map_id _)
  rw [Function.comp_apply, hbyte c hc, Char.ofNat_toNat, id_eq]

/-! ## All of them -/

section Channels

variable (log : DataLog) (metadata : String → Option String) (d : UtcDate) (parseInt : String → ℤ)

/-- **The channels from an index on** read back. -/
theorem readChannels_writeLd {file : List U8} {channels : List LdChannel} {next : ℕ → ℕ}
    (hread : ∀ k c, channels[k]? = some c → readChannel file (next k) = some c ∧ c.next = next (k + 1) ∧ 0 < next k)
    (hend : next channels.length = 0) (m k fuel : ℕ) (hk : k + m = channels.length) (hfuel : m ≤ fuel) :
    readChannels file fuel (next k) = some (channels.drop k) := by
  induction m generalizing k fuel with
  | zero =>
      rw [Nat.add_zero] at hk
      rw [hk, hend, readChannels, List.drop_length]
  | succ m ih =>
      obtain ⟨fuel, rfl⟩ : ∃ f, fuel = f + 1 := ⟨fuel - 1, by omega⟩
      have hindex : k < channels.length := by omega
      obtain ⟨hchannel, hnext, hpos⟩ := hread k channels[k] (List.getElem?_eq_getElem hindex)
      obtain ⟨p, hp⟩ : ∃ p, next k = p + 1 := ⟨next k - 1, by omega⟩
      rw [hp, readChannels, ← hp, hchannel, Option.bind_some, hnext, ih (k + 1) fuel (by omega) (by omega), Option.map_some,
        List.drop_eq_getElem_cons hindex]

/-- The pointer to the first header is in the file's header. -/
theorem readLd_eq : readLd (writeLd log metadata d parseInt) =
    readChannels (writeLd log metadata d parseInt) (writeLd log metadata d parseInt).length headerPtr := by
  obtain ⟨first, rest, hfields⟩ : ∃ first rest,
      unpack headFmt (writeLd log metadata d parseInt) 0 = some (.num first :: .num headerPtr :: rest) := by
    rw [unpack_header]
    exact ⟨_, _, rfl⟩
  unfold readLd
  rw [hfields, Option.bind_some]
  rfl

/-- The pointer to the header at an index, or 0 behind the last one. -/
def DataLog.nextPlace (log : DataLog) (k : ℕ) : ℕ := if k = log.written.length then 0 else metaPlace k

/-- **A file with a channel** reads back, each sample as it is stored. -/
theorem readLd_writeLd (hchannels : log.written ≠ []) (hsize : log.total < 2 ^ 32)
    (hfreq : ∀ c ∈ log.written, mathRound c.averageFrequency < 65536) :
    readLd (writeLd log metadata d parseInt) = some (log.written.mapIdx log.storedChannel) := by
  have hlen : (log.written.mapIdx log.storedChannel).length = log.written.length := List.length_mapIdx
  have hpos : 0 < log.written.length := List.length_pos_iff.mpr hchannels
  have hread : ∀ k c, (log.written.mapIdx log.storedChannel)[k]? = some c →
      readChannel (writeLd log metadata d parseInt) (log.nextPlace k) = some c ∧ c.next = log.nextPlace (k + 1) ∧
        0 < log.nextPlace k := by
    intro k c hk
    rw [List.getElem?_mapIdx] at hk
    obtain ⟨channel, hchannel, rfl⟩ := Option.map_eq_some_iff.mp hk
    have hindex : k < log.written.length := (List.getElem?_eq_some_iff.mp hchannel).1
    have hplace : log.nextPlace k = metaPlace k := if_neg hindex.ne
    rw [hplace]
    refine ⟨readChannel_writeLd log metadata d parseInt hsize hchannel (hfreq _ (List.mem_of_getElem? hchannel)), rfl, ?_⟩
    unfold metaPlace headerPtr
    omega
  -- each channel has a header in the file, so the walk of `readLd` reaches the last one
  have hfuel : log.written.length ≤ (writeLd log metadata d parseInt).length := by
    rw [length_writeLd, total_eq, channelHeaderSize_eq]
    omega
  have hall := readChannels_writeLd hread (by rw [hlen]; exact if_pos rfl) log.written.length 0
    (writeLd log metadata d parseInt).length (by omega) hfuel
  have hfirst : log.nextPlace 0 = headerPtr := by
    rw [DataLog.nextPlace, if_neg hpos.ne, metaPlace, Nat.zero_mul, Nat.add_zero]
  rw [hfirst] at hall
  rw [readLd_eq, hall, List.drop_zero]

/-- **A file with no channel** has a pointer to the first header behind its end. -/
theorem readLd_of_empty (hchannels : log.written = []) : readLd (writeLd log metadata d parseInt) = none := by
  have htotal : log.total = headerPtr := by
    rw [total_eq, hchannels, List.length_nil, Nat.zero_mul, dataOffset, List.take_nil]
    rfl
  have hnone : readChannel (writeLd log metadata d parseInt) headerPtr = none := by
    unfold readChannel unpack
    rw [parse_chanFmt, Option.bind_some, length_writeLd, htotal, if_neg (by decide), Option.bind_none]
  rw [readLd_eq, length_writeLd, htotal]
  show readChannels _ (11335 + 1) (11335 + 1) = none
  rw [readChannels]
  exact congrArg (Option.bind · _) hnone

/-- **The headers are linked.** -/
theorem linked_ldChannels : Linked (log.written.mapIdx log.ldChannel) := by
  constructor
  · refine List.isChain_iff_getElem.mpr fun i hi => ?_
    rw [List.length_mapIdx] at hi
    rw [List.getElem_mapIdx, List.getElem_mapIdx]
    exact ⟨if_neg hi.ne, by rw [DataLog.ldChannel, if_neg (Nat.succ_ne_zero i)]; rfl⟩
  · intro c hc
    rw [List.head?_eq_getElem?, List.getElem?_mapIdx] at hc
    obtain ⟨channel, -, rfl⟩ := Option.map_eq_some_iff.mp hc
    rfl
  · intro c hc
    rw [List.getLast?_eq_getElem?, List.length_mapIdx, List.getElem?_mapIdx] at hc
    obtain ⟨channel, hchannel, rfl⟩ := Option.map_eq_some_iff.mp hc
    have hindex := (List.getElem?_eq_some_iff.mp hchannel).1
    exact if_pos (by omega)

/-- **The data follow one another** up to the end of the file. -/
theorem contiguous_ldChannels : Contiguous log.total (log.written.mapIdx log.ldChannel) := by
  have hbehind {i j : ℕ} {c : Channel} (hi : log.written[i]? = some c) (hij : i < j) :
      log.dataPlace i + 4 * c.samples.length ≤ log.dataPlace j := by
    have hmono := dataOffset_mono log.written (Nat.succ_le_of_lt hij)
    rw [Nat.succ_eq_add_one, dataOffset_succ hi] at hmono
    unfold DataLog.dataPlace
    omega
  constructor
  · refine List.isChain_iff_getElem.mpr fun i hi => ?_
    rw [List.length_mapIdx] at hi
    rw [List.getElem_mapIdx, List.getElem_mapIdx]
    have hnext := dataOffset_succ (List.getElem?_eq_getElem (Nat.lt_of_succ_lt hi))
    simp only [DataLog.ldChannel, DataLog.dataPlace, hnext]
    ring
  · refine List.pairwise_iff_getElem.mpr fun i j hi hj hij => ?_
    rw [List.length_mapIdx] at hi
    rw [List.getElem_mapIdx, List.getElem_mapIdx]
    exact hbehind (List.getElem?_eq_getElem hi) hij
  · intro a ha b hb
    obtain ⟨i, hi, rfl⟩ := List.mem_mapIdx.mp ha
    obtain ⟨j, hj, rfl⟩ := List.mem_mapIdx.mp hb
    simp only [DataLog.ldChannel, DataLog.dataPlace, metaPlace, channelHeaderSize_eq]
    omega
  · intro c hc
    rw [List.getLast?_eq_getElem?, List.length_mapIdx, List.getElem?_mapIdx] at hc
    obtain ⟨channel, hchannel, rfl⟩ := Option.map_eq_some_iff.mp hc
    have hindex := (List.getElem?_eq_some_iff.mp hchannel).1
    have hsucc : log.written.length - 1 + 1 = log.written.length := by omega
    have hnext := dataOffset_succ hchannel
    rw [hsucc] at hnext
    rw [DataLog.total, DataLog.dataPlace, hnext]
    simp only [DataLog.ldChannel, DataLog.dataPlace]
    ring

/-- **The channels of a written file** read back, where there are any: those with samples, in order, with their texts, counts,
frequencies and samples. Their headers are linked both ways, and their data follow one another up to the end of the file. -/
theorem channels_round_trip (hchannels : log.written ≠ []) (hsize : (writeLd log metadata d parseInt).length < 2 ^ 32)
    (hfreq : ∀ c ∈ log.written, mathRound c.averageFrequency < 65536)
    (hvalues : ∀ c ∈ log.written, ∀ s ∈ c.samples, Storable s.value) :
    readLd (writeLd log metadata d parseInt) = some (log.written.mapIdx log.ldChannel) ∧
      (∀ text size, 0 < size → (∀ c ∈ fixed text size, c.toNat ≠ 0) →
        cString (textField size (fixed text size)) = fixed text size) ∧
      Linked (log.written.mapIdx log.ldChannel) ∧
      Contiguous (writeLd log metadata d parseInt).length (log.written.mapIdx log.ldChannel) := by
  have hlen := length_writeLd log metadata d parseInt
  have hsame : log.written.mapIdx log.storedChannel = log.written.mapIdx log.ldChannel := by
    refine List.ext_getElem? fun k => ?_
    rw [List.getElem?_mapIdx, List.getElem?_mapIdx]
    refine Option.map_congr fun c hc => ?_
    have hsamples : (c.samples.map fun s => stored s.value) = c.samples.map (·.value) :=
      List.map_congr_left fun s hs => stored_of_storable (hvalues c (List.mem_of_getElem? hc) s hs)
    rw [DataLog.storedChannel, hsamples]
    rfl
  rw [hlen] at hsize ⊢
  refine ⟨?_, fun text size hpos hzero => cString_fixed text hpos hzero, linked_ldChannels log, contiguous_ldChannels log⟩
  rw [readLd_writeLd log metadata d parseInt hchannels hsize hfreq, hsame]

end Channels

/-- A log of two channels with samples and one without. -/
def lapLog : DataLog :=
  { name := "lap"
    channels :=
      [{ name := "Speed", unit := "km/h", samples := [⟨0, some 0⟩, ⟨1 / 2, some (3 / 2)⟩] }, { name := "Brake" },
        { name := "Throttle", unit := "%", samples := [⟨0, some (-100)⟩] }] }

theorem storable_lapLog : ∀ c ∈ lapLog.written, ∀ s ∈ c.samples, Storable s.value := by
  have hzero : Storable (some 0) := ⟨0, 0, by decide +kernel, rfl, by norm_num [floatLimit]⟩
  have hspeed : Storable (some (3 / 2)) := ⟨0x3fc00000, 3 / 2, by decide +kernel, rfl, by norm_num [floatLimit, abs_div]⟩
  have hthrottle : Storable (some (-100)) := ⟨0xc2c80000, -100, by decide +kernel, rfl, by norm_num [floatLimit]⟩
  intro c hc s hs
  have hwritten : lapLog.written =
      [{ name := "Speed", unit := "km/h", samples := [⟨0, some 0⟩, ⟨1 / 2, some (3 / 2)⟩] },
        { name := "Throttle", unit := "%", samples := [⟨0, some (-100)⟩] }] := rfl
  rw [hwritten, List.mem_cons, List.mem_singleton] at hc
  rcases hc with rfl | rfl
  · rw [List.mem_cons, List.mem_singleton] at hs
    rcases hs with rfl | rfl
    · exact hzero
    · exact hspeed
  · obtain rfl := List.mem_singleton.mp hs
    exact hthrottle

theorem channels_round_trip_lap :
    readLd (writeLd lapLog (fun _ => none) ⟨1, 0, 2026, 0, 0, 0⟩ fun _ => 0) =
        some (lapLog.written.mapIdx lapLog.ldChannel) ∧
      (lapLog.written.mapIdx lapLog.ldChannel).map (fun c => (c.prev, c.next, c.data, c.count, c.freq)) =
        [(0, 11460, 11584, 2, 2), (11336, 0, 11592, 1, 1)] :=
  ⟨(channels_round_trip lapLog _ _ _ (by decide) (by rw [length_writeLd]; decide +kernel) (by decide +kernel)
    storable_lapLog).1, by decide +kernel⟩

/-- A log of one sample: the largest float. -/
def fullScaleLog : DataLog :=
  { name := "full", channels := [{ name := "Speed", samples := [⟨0, some ((2 ^ 24 - 1) * 2 ^ 104)⟩] }] }

/-- A file with no channel is not read at all, and the largest float is cut off. -/
theorem not_channels_round_trip_always :
    readLd (writeLd ⟨"log", []⟩ (fun _ => none) ⟨1, 0, 2026, 0, 0, 0⟩ fun _ => 0) ≠ some [] ∧
      Float32.value 0x7f7fffff = some ((2 ^ 24 - 1) * 2 ^ 104) ∧
      readLd (writeLd fullScaleLog (fun _ => none) ⟨1, 0, 2026, 0, 0, 0⟩ fun _ => 0) ≠
        some (fullScaleLog.written.mapIdx fullScaleLog.ldChannel) := by
  refine ⟨?_, by decide +kernel, ?_⟩
  · rw [readLd_of_empty _ _ _ _ rfl]
    exact Option.some_ne_none _ |>.symm
  · rw [readLd_writeLd _ _ _ _ (by decide) (by decide +kernel) (by decide +kernel)]
    intro h
    have hsamples : ((fullScaleLog.written.mapIdx fullScaleLog.storedChannel).map (·.samples)) =
        (fullScaleLog.written.mapIdx fullScaleLog.ldChannel).map (·.samples) := congrArg _ (Option.some.inj h)
    revert hsamples
    decide +kernel

end Lhre.Motec
