import Mathlib.Tactic
import Mathlib.Data.List.DropRight

/-!
# `Bevo.Nmea` — the sentences of the position receiver

`update_external_dynamics_from_sentence` and the parsers it calls, of `apps/BEVO/cand/main.rs`. A sentence is its characters. A
number is exact, or `none` where it is not finite; the rounding of `parse` and of `as f32` is a parameter.

## Contents
- **Text.** `isWhite`, `trim`, `splitOnce`, `fromStrRadix16`, `isNumber`.
- **Parsers.** `parsePpos`, `parseNmeaGps`, `parsePimuXyz`, `parseNmeaGpsSpeed`.
- **The update.** `updateFromSentence`.
-/

namespace Lhre.Bevo.Nmea

abbrev Text := List Char

/-! ## Text -/

/-- The property `White_Space`. -/
def isWhite (c : Char) : Bool :=
  let n := c.toNat
  (9 ≤ n && n ≤ 13) || n = 0x20 || n = 0x85 || n = 0xA0 || n = 0x1680 || (0x2000 ≤ n && n ≤ 0x200A) || n = 0x2028 ||
    n = 0x2029 || n = 0x202F || n = 0x205F || n = 0x3000

def trim (s : Text) : Text := (s.dropWhile isWhite).rdropWhile isWhite

/-- `split_once`. -/
def splitOnce (sep : Char) (s : Text) : Option (Text × Text) :=
  match s.dropWhile (· ≠ sep) with
  | [] => none
  | _ :: rest => some (s.takeWhile (· ≠ sep), rest)

/-- `to_digit(16)`. -/
def hexDigit (c : Char) : Option ℕ :=
  if '0' ≤ c ∧ c ≤ '9' then some (c.toNat - 48)
  else if 'a' ≤ c ∧ c ≤ 'f' then some (c.toNat - 87)
  else if 'A' ≤ c ∧ c ≤ 'F' then some (c.toNat - 55)
  else none

/-- The value of hexadecimal digits as an `u8`; `none` where one is no digit, or the value overflows. -/
def hexValue (n : ℕ) : Text → Option ℕ
  | [] => some n
  | c :: rest => (hexDigit c).bind fun d => if 16 * n + d < 256 then hexValue (16 * n + d) rest else none

/-- `u8::from_str_radix(_, 16).ok()`. -/
def fromStrRadix16 : Text → Option ℕ
  | [] => none
  | '+' :: [] => none
  | '+' :: digits => hexValue 0 digits
  | digits => hexValue 0 digits

def isDigit (c : Char) : Bool := '0' ≤ c && c ≤ '9'

/-- An optional sign is left out. -/
def unsigned : Text → Text
  | '+' :: rest => rest
  | '-' :: rest => rest
  | s => s

/-- An exponent, or nothing. -/
def isExponent : Text → Bool
  | [] => true
  | c :: rest => (c == 'e' || c == 'E') && !(unsigned rest).isEmpty && (unsigned rest).all isDigit

/-- Digits with a point among them or none, and an exponent. -/
def isDecimal (s : Text) : Bool :=
  let whole := s.takeWhile isDigit
  match s.dropWhile isDigit with
  | '.' :: rest =>
      let fraction := rest.takeWhile isDigit
      (!whole.isEmpty || !fraction.isEmpty) && isExponent (rest.dropWhile isDigit)
  | rest => !whole.isEmpty && isExponent rest

/-- The texts that `f64` and `f32` are parsed from. -/
def isNumber (s : Text) : Bool :=
  let body := unsigned s
  decide (body.map Char.toLower ∈ ["inf".toList, "infinity".toList, "nan".toList]) || isDecimal body

/-! ## Parsers -/

/-- A number, where it is finite. -/
abbrev Float := Option ℚ

/-- How numbers are rounded: parsed to 64 and to 32 bits, and cast from 64 to 32. -/
structure Rounding where
  parse64 : Text → Float
  parse32 : Text → Float
  cast : Float → Float

variable (ρ : Rounding)

/-- `parse::<f64>().ok()`. -/
def parseF64 (s : Text) : Option Float := if isNumber s then some (ρ.parse64 s) else none

/-- `parse::<f32>().ok()`. -/
def parseF32 (s : Text) : Option Float := if isNumber s then some (ρ.parse32 s) else none

/-- `map_while`. -/
def mapWhile {α β : Type} (f : α → Option β) : List α → List β
  | [] => []
  | a :: rest =>
      match f a with
      | none => []
      | some b => b :: mapWhile f rest

/-- `body.bytes().fold(0, |a, b| a ^ b)`. -/
def checksumOf (body : Text) : UInt8 := (body.flatMap String.utf8EncodeChar).foldl (· ^^^ ·) 0

/-- `parse_ppos`. -/
def parsePpos (sentence : Text) : Option (List Float) :=
  match sentence with
  | '$' :: rest =>
      (splitOnce '*' rest).bind fun (body, checksum) =>
        if "PPOS,".toList <+: body ∧ fromStrRadix16 (trim checksum) = some (checksumOf body).toNat then
          let values := mapWhile (parseF64 ρ) ((body.splitOn ',').drop 1)
          some (if values.length = 6 then values else [])
        else none
  | _ => none

/-- The fields of a sentence: the payload in front of the checksum, split at its commas. -/
def fields (sentence : Text) : List Text := (sentence.takeWhile (· ≠ '*')).splitOn ','

/-- `nmea_coord_to_decimal`. -/
def nmeaCoordToDecimal (raw hemi : Text) : Option Float :=
  let raw := trim raw
  if raw = [] then none
  else (parseF64 ρ raw).map fun value =>
    let decimal := value.map fun v => (⌊v / 100⌋ : ℚ) + (v - ⌊v / 100⌋ * 100) / 60
    let hemiUpper := (trim hemi).map Char.toUpper
    ρ.cast (if hemiUpper = ['S'] ∨ hemiUpper = ['W'] then decimal.map (- ·) else decimal)

/-- Where the latitude is. -/
def gpsField (msg : Text) : Option ℕ :=
  if "GGA".toList <:+ msg then some 2 else if "RMC".toList <:+ msg then some 3 else none

/-- `parse_nmea_gps`. -/
def parseNmeaGps (sentence : Text) : Option (Float × Float) :=
  if sentence.head? ≠ some '$' then none
  else do
    let msg ← (fields sentence)[0]?
    let first ← gpsField msg
    let latRaw ← (fields sentence)[first]?
    let latHemi ← (fields sentence)[first + 1]?
    let lonRaw ← (fields sentence)[first + 2]?
    let lonHemi ← (fields sentence)[first + 3]?
    let lat ← nmeaCoordToDecimal ρ latRaw latHemi
    let lon ← nmeaCoordToDecimal ρ lonRaw lonHemi
    some (lat, lon)

/-- `parse_pimu_xyz`. -/
def parsePimuXyz (sentence : Text) : Option (Float × Float × Float) :=
  if sentence.head? ≠ some '$' then none
  else do
    let msg ← (fields sentence)[0]?
    if ¬ "PIMU".toList <:+ msg then none
    else
      let x ← (fields sentence)[3]? >>= fun s => parseF32 ρ (trim s)
      let y ← (fields sentence)[4]? >>= fun s => parseF32 ρ (trim s)
      let z ← (fields sentence)[5]? >>= fun s => parseF32 ρ (trim s)
      some (x, y, z)

/-- Where the speed in knots is. -/
def speedField (msg : Text) : Option ℕ :=
  if "RMC".toList <:+ msg then some 7 else if "VTG".toList <:+ msg then some 5 else none

/-- `parse_nmea_gps_speed`. -/
def parseNmeaGpsSpeed (sentence : Text) : Option Float :=
  if sentence.head? ≠ some '$' then none
  else do
    let msg ← (fields sentence)[0]?
    let place ← speedField msg
    let speedKnots ← (fields sentence)[place]?
    parseF32 ρ (trim speedKnots)

/-! ## The update -/

/-- The fields of `ExternalDynamicsData`. -/
structure ExternalDynamics where
  gps : List Float := []
  gpsImu : List Float := []
  gpsSpeed : Float := some 0
  gpsPrecise : List Float := []

/-- `update_external_dynamics_from_sentence`. -/
def updateFromSentence (external : ExternalDynamics) (sentence : Text) : ExternalDynamics :=
  if sentence = [] then external
  else
    match parsePpos ρ sentence with
    | some precise => { external with gpsPrecise := precise }
    | none =>
        let located :=
          match parseNmeaGps ρ sentence with
          | some (lat, lon) => { external with gps := [lat, lon] }
          | none => external
        -- RMC also carries the speed
        match parsePimuXyz ρ sentence with
        | some (x, y, z) => { located with gpsImu := [x, y, z] }
        | none =>
            match parseNmeaGpsSpeed ρ sentence with
            | some speed => { located with gpsSpeed := speed }
            | none => located

end Lhre.Bevo.Nmea
