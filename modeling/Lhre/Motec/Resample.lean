import Lhre.Motec.Ld

/-!
# `Motec.Resample` — channels on a grid, and the rows of a table

`Channel.resample` and `DataLog.resample` of `viewer_tool/src/lib/motec/datalog.ts`, and `writeCsv` of `exporter.ts`. The index
that `resample` carries is the list of the samples from it on. How a number is written is a parameter.

## Contents
- **One channel.** `advance`, `resampleLoop`, `Channel.resample`.
- **The log.** `DataLog.start`, `DataLog.finish`, `DataLog.resample`.
- **The table.** `csvHeaders`, `csvElapsed`, `csvRow`, `writeCsv`.
-/

namespace Lhre.Motec

/-! ## One channel -/

def Channel.start (c : Channel) : ℚ := (c.samples.head?.map (·.t)).getD 0

/-- `end`. -/
def Channel.finish (c : Channel) : ℚ := (c.samples.getLast?.map (·.t)).getD 0

/-- The rate of a channel that is given none. -/
def Channel.ownHz (c : Channel) : ℚ :=
  max 1 (mathRound (if c.averageFrequency = 0 then 20 else c.averageFrequency))

/-- `targetHz`. -/
def Channel.targetHz (c : Channel) (frequencyHz : Option ℚ) : ℚ :=
  match frequencyHz with
  | none => c.ownHz
  | some hz => if hz = 0 then c.ownHz else hz

/-- The loop that moves the index on while the next sample is before `t`. -/
def advance (t : ℚ) : List Sample → List Sample
  | a :: b :: rest => if b.t < t then advance t (b :: rest) else a :: b :: rest
  | rest => rest

/-- The value between two samples. -/
def between (a b : Sample) (t : ℚ) : Option ℚ :=
  if b.t ≤ a.t then a.value
  else a.value.bind fun x => b.value.map fun y => x + (y - x) * ((t - a.t) / (b.t - a.t))

/-- The loop over the grid from `n` on, with the samples from `index` on. -/
def resampleLoop (first last : Sample) (start finish step : ℚ) : ℕ → ℕ → List Sample → List Sample
  | 0, _, _ => []
  | count + 1, n, rest =>
      let t := min finish (start + n * step)
      if t ≤ first.t then ⟨t, first.value⟩ :: resampleLoop first last start finish step count (n + 1) rest
      else if last.t ≤ t then ⟨t, last.value⟩ :: resampleLoop first last start finish step count (n + 1) rest
      else
        let rest' := advance t rest
        let value :=
          match rest' with
          | a :: b :: _ => between a b t
          | _ => none
        ⟨t, value⟩ :: resampleLoop first last start finish step count (n + 1) rest'

/-- The number of grid points. -/
def gridCount (start finish hz : ℚ) : ℕ := max 1 (⌊(finish - start) * hz⌋ + 1).toNat

/-- `Channel.resample`. -/
def Channel.resample (c : Channel) (start finish : ℚ) (frequencyHz : Option ℚ) : Channel :=
  match c.samples.head?, c.samples.getLast? with
  | some first, some last =>
      let hz := c.targetHz frequencyHz
      if hz ≤ 0 ∨ finish ≤ start then c
      else { c with samples := resampleLoop first last start finish (1 / hz) (gridCount start finish hz) 0 c.samples }
  | _, _ => c

/-! ## The log -/

def DataLog.start (log : DataLog) : ℚ := ((log.written.map Channel.start).min?).getD 0

/-- `end`. -/
def DataLog.finish (log : DataLog) : ℚ := ((log.written.map Channel.finish).max?).getD 0

/-- `DataLog.resample`. -/
def DataLog.resample (log : DataLog) (frequencyHz : Option ℚ) : DataLog :=
  { log with channels := log.channels.map fun c => c.resample log.start log.finish frequencyHz }

/-! ## The table -/

/-- The double quote. -/
def quote : Char := Char.ofNat 34

/-- `csvCell`. -/
def csvCell (value : String) : String :=
  if value.toList.any (fun c => c == quote || c == ',' || c == Char.ofNat 10) then
    String.ofList (quote :: (value.toList.flatMap fun c => if c == quote then [quote, quote] else [c]) ++ [quote])
  else value

/-- The headers, where a channel that repeats a name gets a number. -/
def csvHeaders (channels : List Channel) : List String :=
  let bases := channels.map fun c => if c.unit = "" then c.name else s!"{c.name} ({c.unit})"
  ["timestamp_ms", "elapsed_s"] ++ (bases.zipIdx.map fun (base, i) =>
    let count := (bases.take (i + 1)).count base
    if count = 1 then base else s!"{base} {count}")

/-- A row: the time, and a cell for each channel that reaches it. -/
structure CsvRow where
  timestampMs : ℤ
  elapsed : ℚ
  cells : List (Option (Option ℚ))
deriving DecidableEq

/-- `elapsed`: the time of the first channel that reaches row `i`. -/
def csvElapsed (channels : List Channel) (i : ℕ) : ℚ := ((channels.findSome? fun c => c.samples[i]?).map (·.t)).getD 0

def csvRow (channels : List Channel) (startMs : ℚ) (i : ℕ) : CsvRow where
  timestampMs := mathRound (startMs + csvElapsed channels i * 1000)
  elapsed := csvElapsed channels i
  cells := channels.map fun c => c.samples[i]?.map (·.value)

def csvRows (channels : List Channel) (startMs : ℚ) : List CsvRow :=
  (List.range ((channels.map fun c => c.samples.length).max?.getD 0)).map (csvRow channels startMs)

variable (text : ℚ → String)

/-- `csvFloat`. -/
def csvFloat (value : Option ℚ) : String := (value.map fun x => text (mathRound (x * 1000000000) / 1000000000)).getD ""

/-- `writeCsv`. -/
def writeCsv (log : DataLog) (startMs : ℚ) : String :=
  let header := (csvHeaders log.written).map csvCell
  let rows := (csvRows log.written startMs).map fun row =>
    text row.timestampMs :: csvFloat text (some row.elapsed) :: row.cells.map fun cell => (cell.map (csvFloat text)).getD ""
  String.intercalate "\r\n" ((header :: rows).map (String.intercalate ",")) ++ "\r\n"

end Lhre.Motec
