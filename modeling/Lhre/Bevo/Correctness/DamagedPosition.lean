import Mathlib.Data.List.Infix
import Mathlib.Data.List.TakeWhile
import Lhre.Bevo.Nmea

/-!
# `Bevo.Correctness.DamagedPosition` — a damaged position sentence changes nothing

A position sentence that was cut off, or has one character replaced by another, is either refused by every parser, or it has
the same body and a checksum that reads as the same number.

## Contents
- **Sentences.** `Field`, `Ppos`, `Damaged`.
- **Numbers.** `isNumber_chars`, `isNumber_last`.
- **The checksum.** `checksumOf_replace`, `fromStrRadix16_star`.
- **The position parser.** `parsePpos_star`, `parsePpos_damaged`.
- **The other parsers.** `Foreign`, `others_none`, `foreign_damaged`.
- **`damaged_position`.**
-/

namespace Lhre.Bevo.Nmea

/-! ## Sentences -/

/-- A field that is a number or empty. -/
def Field (s : Text) : Prop := s = [] ∨ isNumber s = true

/-- The body of a position sentence. -/
def pposBody (fields : List Text) : Text := "PPOS".toList ++ fields.flatMap fun f => ',' :: f

/-- A position sentence with six fields and a correct checksum of two digits. -/
structure Ppos (line : Text) (fields : List Text) (high low : Char) : Prop where
  line_eq : line = '$' :: (pposBody fields ++ ['*', high, low])
  count : fields.length = 6
  each : ∀ f ∈ fields, Field f
  checksum : ∃ h l, hexDigit high = some h ∧ hexDigit low = some l ∧ 16 * h + l = (checksumOf (pposBody fields)).toNat

/-- A line that was cut off, or had a character replaced by another one of ASCII. -/
inductive Damaged (line : Text) : Text → Prop
  | cut (damaged : Text) (h : damaged <+: line) (hne : damaged ≠ line) : Damaged line damaged
  | replaced (front : Text) (c c' : Char) (back : Text) (h : line = front ++ c :: back) (hne : c' ≠ c)
      (hascii : c'.toNat < 128) : Damaged line (front ++ c' :: back)

/-! ## Numbers -/

/-- A character of a decimal number. -/
def Decimal (c : Char) : Prop := isDigit c = true ∨ c ∈ ['+', '-', '.', 'e', 'E']

/-- A letter of the numbers that are written as words. -/
def Worded (c : Char) : Prop := c.toLower ∈ "infatyn".toList

theorem isExponent_chars {s : Text} (h : isExponent s = true) : ∀ c ∈ s, Decimal c := by
  cases s with
  | nil => simp
  | cons e rest =>
      simp only [isExponent, Bool.and_eq_true, Bool.or_eq_true, beq_iff_eq, List.all_eq_true] at h
      obtain ⟨⟨he, -⟩, hdigits⟩ := h
      intro c hc
      rcases List.mem_cons.mp hc with rfl | hmem
      · rcases he with rfl | rfl <;> exact Or.inr (by decide)
      · unfold unsigned at hdigits
        split at hdigits
        · rcases List.mem_cons.mp hmem with rfl | hrest
          · exact Or.inr (by decide)
          · exact Or.inl (hdigits c hrest)
        · rcases List.mem_cons.mp hmem with rfl | hrest
          · exact Or.inr (by decide)
          · exact Or.inl (hdigits c hrest)
        · exact Or.inl (hdigits c hmem)

theorem isDecimal_chars {s : Text} (h : isDecimal s = true) : ∀ c ∈ s, Decimal c := by
  have hsplit := List.takeWhile_append_dropWhile (p := isDigit) (l := s)
  intro c hc
  rw [← hsplit] at hc
  rcases List.mem_append.mp hc with hwhole | hrest
  · exact Or.inl (List.mem_takeWhile_imp hwhole)
  · unfold isDecimal at h
    dsimp only at h
    split at h
    · rename_i rest heq
      rw [heq] at hrest
      rw [Bool.and_eq_true] at h
      rcases List.mem_cons.mp hrest with rfl | hmem
      · exact Or.inr (by decide)
      · rw [← List.takeWhile_append_dropWhile (p := isDigit) (l := rest)] at hmem
        rcases List.mem_append.mp hmem with hfraction | hexponent
        · exact Or.inl (List.mem_takeWhile_imp hfraction)
        · exact isExponent_chars h.2 c hexponent
    · rw [Bool.and_eq_true] at h
      exact isExponent_chars h.2 c hrest

/-- What the characters of a number are. -/
theorem isNumber_chars {s : Text} (h : isNumber s = true) : ∀ c ∈ s, Decimal c ∨ Worded c := by
  have hbody : ∀ c ∈ unsigned s, Decimal c ∨ Worded c := by
    simp only [isNumber, Bool.or_eq_true, decide_eq_true_eq] at h
    intro c hc
    rcases h with hword | hdecimal
    · right
      have hmem : c.toLower ∈ (unsigned s).map Char.toLower := List.mem_map_of_mem hc
      have hletters : ∀ w ∈ ["inf".toList, "infinity".toList, "nan".toList], ∀ c ∈ w, c ∈ "infatyn".toList := by simp
      exact hletters _ hword _ hmem
    · exact Or.inl (isDecimal_chars hdecimal c hc)
  intro c hc
  unfold unsigned at hbody
  split at hbody
  · rcases List.mem_cons.mp hc with rfl | hrest
    · exact Or.inl (Or.inr (by decide))
    · exact hbody c hrest
  · rcases List.mem_cons.mp hc with rfl | hrest
    · exact Or.inl (Or.inr (by decide))
    · exact hbody c hrest
  · exact hbody c hc

/-- How a number ends. -/
theorem isNumber_last {s : Text} (h : isNumber s = true) :
    ∃ front c, s = front ++ [c] ∧ (Decimal c ∨ c.toLower ∈ "fyn".toList) := by
  have hbody : ∃ front c, unsigned s = front ++ [c] ∧ (Decimal c ∨ c.toLower ∈ "fyn".toList) := by
    have hne : unsigned s ≠ [] := by
      intro hnil
      rw [isNumber, hnil] at h
      exact absurd h (by decide)
    obtain ⟨front, c, heq⟩ : ∃ front c, unsigned s = front ++ [c] :=
      ⟨_, _, (List.dropLast_append_getLast hne).symm⟩
    refine ⟨front, c, heq, ?_⟩
    simp only [isNumber, Bool.or_eq_true, decide_eq_true_eq] at h
    rcases h with hword | hdecimal
    · right
      have hlast : ∀ w ∈ ["inf".toList, "infinity".toList, "nan".toList], ∀ d ∈ w.getLast?, d ∈ "fyn".toList := by simp
      refine hlast _ hword c.toLower ?_
      rw [heq, List.map_append]
      exact List.getLast?_concat
    · exact Or.inl (isDecimal_chars hdecimal c (by rw [heq]; simp))
  unfold unsigned at hbody
  obtain ⟨front, c, heq, hc⟩ := hbody
  split at heq
  · exact ⟨'+' :: front, c, by rw [heq]; rfl, hc⟩
  · exact ⟨'-' :: front, c, by rw [heq]; rfl, hc⟩
  · exact ⟨front, c, heq, hc⟩

theorem Worded.ascii {c : Char} (h : Worded c) : c.toNat < 128 := by
  unfold Worded Char.toLower at h
  split at h
  · rename_i hupper
    have hle : c.toNat ≤ 'Z'.toNat := hupper.2
    exact hle.trans_lt (by decide)
  · have hascii : ∀ d ∈ "infatyn".toList, d.toNat < 128 := by simp
    exact hascii c h

theorem isDigit_ascii {c : Char} (h : isDigit c = true) : c.toNat < 128 := by
  rw [isDigit, Bool.and_eq_true, decide_eq_true_eq, decide_eq_true_eq] at h
  have hle : c.toNat ≤ '9'.toNat := h.2
  exact hle.trans_lt (by decide)

/-- A field has neither a comma nor a star in it, and only characters of ASCII. -/
theorem Field.chars {s : Text} (h : Field s) : ∀ c ∈ s, c ≠ ',' ∧ c ≠ '*' ∧ c.toNat < 128 := by
  intro c hc
  rcases h with rfl | hnumber
  · cases hc
  · have hascii : c.toNat < 128 := by
      rcases isNumber_chars hnumber c hc with (hdigit | hsign) | hword
      · exact isDigit_ascii hdigit
      · have : ∀ d ∈ ['+', '-', '.', 'e', 'E'], d.toNat < 128 := by simp
        exact this c hsign
      · exact hword.ascii
    refine ⟨?_, ?_, hascii⟩
    · rintro rfl
      exact absurd (isNumber_chars hnumber _ hc) (by unfold Decimal Worded; decide)
    · rintro rfl
      exact absurd (isNumber_chars hnumber _ hc) (by unfold Decimal Worded; decide)

/-! ## The checksum -/

theorem bytes_ascii {c : Char} (h : c.toNat < 128) : String.utf8EncodeChar c = [c.val.toUInt8] := by
  refine String.utf8EncodeChar_eq_singleton (Char.utf8Size_eq_one_iff.mpr ?_)
  exact UInt32.le_iff_toNat_le.mpr (Nat.le_of_lt_succ h)

theorem foldl_xor (bs : List UInt8) (a : UInt8) : bs.foldl (· ^^^ ·) a = a ^^^ bs.foldl (· ^^^ ·) 0 := by
  induction bs generalizing a with
  | nil => simp
  | cons b bs ih =>
      rw [List.foldl_cons, List.foldl_cons, ih (a ^^^ b), ih (0 ^^^ b), UInt8.zero_xor, UInt8.xor_assoc]

theorem checksumOf_append (s t : Text) : checksumOf (s ++ t) = checksumOf s ^^^ checksumOf t := by
  rw [checksumOf, List.flatMap_append, List.foldl_append, foldl_xor]
  rfl

theorem checksumOf_cons {c : Char} (h : c.toNat < 128) (s : Text) :
    checksumOf (c :: s) = c.val.toUInt8 ^^^ checksumOf s := by
  rw [checksumOf, List.flatMap_cons, bytes_ascii h, List.foldl_append, foldl_xor]
  simp [checksumOf]

/-- **One replaced character** changes the checksum. -/
theorem checksumOf_replace (front back : Text) {c c' : Char} (hc : c.toNat < 128) (hc' : c'.toNat < 128) (hne : c' ≠ c) :
    checksumOf (front ++ c' :: back) ≠ checksumOf (front ++ c :: back) := by
  rw [checksumOf_append, checksumOf_append, checksumOf_cons hc, checksumOf_cons hc']
  intro heq
  have hbyte : c'.val.toUInt8 = c.val.toUInt8 := (UInt8.xor_left_inj _).mp ((UInt8.xor_right_inj _).mp heq)
  have hmod : c'.toNat % 256 = c.toNat % 256 := by
    have := congrArg UInt8.toNat hbyte
    rwa [UInt32.toNat_toUInt8, UInt32.toNat_toUInt8] at this
  rw [Nat.mod_eq_of_lt (by omega), Nat.mod_eq_of_lt (by omega)] at hmod
  exact hne (Char.ext (UInt32.toNat_inj.mp hmod))

/-! ## The position parser -/

section Position

variable (ρ : Rounding)

/-- What the position parser stores of a body. -/
def stored (body : Text) : List Float :=
  let values := mapWhile (parseF64 ρ) ((body.splitOn ',').drop 1)
  if values.length = 6 then values else []

theorem splitOnce_eq {sep : Char} {body : Text} (hbody : sep ∉ body) (rest : Text) :
    splitOnce sep (body ++ sep :: rest) = some (body, rest) := by
  have hall : ∀ c ∈ body, decide (c ≠ sep) = true := by
    intro c hc
    refine decide_eq_true ?_
    rintro rfl
    exact hbody hc
  have hdrop : (body ++ sep :: rest).dropWhile (· ≠ sep) = sep :: rest := by
    rw [List.dropWhile_append_of_pos hall]
    simp
  have htake : (body ++ sep :: rest).takeWhile (· ≠ sep) = body := by
    rw [List.takeWhile_append_of_pos hall]
    simp
  rw [splitOnce, hdrop, htake]

theorem splitOnce_none {sep : Char} {s : Text} (h : sep ∉ s) : splitOnce sep s = none := by
  have hnil : s.dropWhile (· ≠ sep) = [] := by
    rw [List.dropWhile_eq_nil_iff]
    intro c hc
    refine decide_eq_true ?_
    rintro rfl
    exact h hc
  rw [splitOnce, hnil]

/-- What is parsed of a sentence whose body has no star. -/
theorem parsePpos_star {body : Text} (hbody : '*' ∉ body) (checksum : Text) :
    parsePpos ρ ('$' :: (body ++ '*' :: checksum)) =
      if "PPOS,".toList <+: body ∧ fromStrRadix16 (trim checksum) = some (checksumOf body).toNat then some (stored ρ body)
      else none := by
  rw [parsePpos, splitOnce_eq hbody]
  rfl

/-- No number has a star in it. -/
theorem hexValue_star {s : Text} (h : '*' ∈ s) (n : ℕ) : hexValue n s = none := by
  induction s generalizing n with
  | nil => cases h
  | cons c s ih =>
      rw [hexValue]
      rcases List.mem_cons.mp h with rfl | hmem
      · rfl
      · cases hexDigit c with
        | none => rfl
        | some d =>
            rw [Option.bind_some]
            split
            · exact ih hmem _
            · rfl

theorem fromStrRadix16_star {s : Text} (h : '*' ∈ s) : fromStrRadix16 s = none := by
  unfold fromStrRadix16
  split
  · rfl
  · rfl
  · rcases List.mem_cons.mp h with hc | hmem
    · exact absurd hc (by decide)
    · exact hexValue_star hmem 0
  · exact hexValue_star h 0

theorem mem_trim {c : Char} (hc : isWhite c = false) {s : Text} (h : c ∈ s) : c ∈ trim s := by
  have hdrop {t : Text} (ht : c ∈ t) : c ∈ t.dropWhile isWhite := by
    rw [← List.takeWhile_append_dropWhile (p := isWhite) (l := t)] at ht
    rcases List.mem_append.mp ht with hwhite | hrest
    · exact absurd (List.mem_takeWhile_imp hwhite) (by rw [hc]; exact Bool.false_ne_true)
    · exact hrest
  rw [trim, List.rdropWhile, List.mem_reverse]
  exact hdrop (List.mem_reverse.mpr (hdrop h))

/-- A sentence without a star is not parsed. -/
theorem parsePpos_dollar {s : Text} (h : '*' ∉ s) : parsePpos ρ ('$' :: s) = none := by
  rw [parsePpos, splitOnce_none h]
  rfl

variable {line : Text} {texts : List Text} {high low : Char} (h : Ppos line texts high low)
include h

/-- The characters of the body. -/
theorem Ppos.body_chars : ∀ c ∈ pposBody texts, c ≠ '*' ∧ c.toNat < 128 := by
  have hname : ∀ c ∈ "PPOS".toList, c ≠ '*' ∧ c.toNat < 128 := by simp
  intro c hc
  rcases List.mem_append.mp hc with hmem | hmem
  · exact hname c hmem
  · obtain ⟨f, hf, hcf⟩ := List.mem_flatMap.mp hmem
    rcases List.mem_cons.mp hcf with rfl | hfield
    · decide
    · exact ((h.each f hf).chars c hfield).2

theorem Ppos.star_notMem : '*' ∉ pposBody texts := fun hmem => (h.body_chars '*' hmem).1 rfl

/-- The two digits of the checksum. -/
theorem Ppos.digits :
    fromStrRadix16 (trim [high, low]) = some (checksumOf (pposBody texts)).toNat ∧ high ≠ '*' ∧ low ≠ '*' := by
  obtain ⟨d, e, hd, he, hsum⟩ := h.checksum
  have hwhite {c : Char} {n : ℕ} (hc : hexDigit c = some n) : isWhite c = false ∧ c ≠ '*' ∧ c ≠ '+' := by
    have hrange : (48 ≤ c.toNat ∧ c.toNat ≤ 57) ∨ (97 ≤ c.toNat ∧ c.toNat ≤ 102) ∨ (65 ≤ c.toNat ∧ c.toNat ≤ 70) := by
      unfold hexDigit at hc
      split at hc
      · rename_i hle
        exact Or.inl hle
      · split at hc
        · rename_i hle
          exact Or.inr (Or.inl hle)
        · split at hc
          · rename_i hle
            exact Or.inr (Or.inr hle)
          · cases hc
    refine ⟨?_, ?_, ?_⟩
    · unfold isWhite
      simp only [Bool.or_eq_false_iff, Bool.and_eq_false_iff, decide_eq_false_iff_not]
      omega
    · rintro rfl
      revert hrange
      decide
    · rintro rfl
      revert hrange
      decide
  obtain ⟨hhigh, hhighStar, hplus⟩ := hwhite hd
  obtain ⟨hlow, hlowStar, -⟩ := hwhite he
  have htrim : trim [high, low] = [high, low] := by
    simp [trim, List.rdropWhile, hhigh, hlow]
  have hbyte := (checksumOf (pposBody texts)).toNat_lt
  have hvalue : hexValue 0 [high, low] = some (16 * d + e) := by
    have hsmall : 16 * 0 + d < 256 := by omega
    have hsmall' : 16 * (16 * 0 + d) + e < 256 := by omega
    simp only [hexValue, hd, he, Option.bind_some, if_pos hsmall, if_pos hsmall']
    simp
  refine ⟨?_, hhighStar, hlowStar⟩
  rw [htrim, ← hsum, ← hvalue]
  unfold fromStrRadix16
  split
  · rename_i heq
    cases heq
  · rename_i heq
    cases heq
  · rename_i heq
    exact absurd (List.cons.inj heq).1 hplus
  · rfl

/-- The sentence itself is stored. -/
theorem Ppos.parse : parsePpos ρ line = some (stored ρ (pposBody texts)) := by
  have hppos : "PPOS,".toList <+: pposBody texts := by
    have hcount := h.count
    cases texts with
    | nil => cases hcount
    | cons f rest => exact ⟨f ++ rest.flatMap fun f => ',' :: f, rfl⟩
  rw [h.line_eq, parsePpos_star ρ h.star_notMem, if_pos ⟨hppos, h.digits.1⟩]

/-- With the body as it was, the position is stored as it was or not at all. -/
theorem Ppos.same_body (checksum : Text) :
    parsePpos ρ ('$' :: (pposBody texts ++ '*' :: checksum)) = none ∨
      parsePpos ρ ('$' :: (pposBody texts ++ '*' :: checksum)) = parsePpos ρ line := by
  rw [h.parse, parsePpos_star ρ h.star_notMem]
  split
  · exact Or.inr rfl
  · exact Or.inl rfl

/-- A sentence with its star replaced is not parsed. -/
theorem Ppos.no_star {c : Char} (hc : c ≠ '*') : parsePpos ρ ('$' :: (pposBody texts ++ c :: [high, low])) = none := by
  refine parsePpos_dollar ρ ?_
  intro hmem
  rcases List.mem_append.mp hmem with hmem | hmem
  · exact h.star_notMem hmem
  · simp only [List.mem_cons, List.not_mem_nil, or_false] at hmem
    rcases hmem with hstar | hstar | hstar
    · exact hc hstar.symm
    · exact h.digits.2.1 hstar.symm
    · exact h.digits.2.2 hstar.symm

/-- A sentence with a character of its body replaced is not parsed: the star ends the body too early, and any other character
changes the checksum. -/
theorem Ppos.other_body {front back : Text} {c c' : Char} (hbody : pposBody texts = front ++ c :: back) (hne : c' ≠ c)
    (hascii : c'.toNat < 128) : parsePpos ρ ('$' :: (front ++ c' :: (back ++ ['*', high, low]))) = none := by
  have hchars := h.body_chars
  rw [hbody] at hchars
  have hfront : '*' ∉ front := fun hmem => (hchars _ (List.mem_append_left _ hmem)).1 rfl
  by_cases hstar : c' = '*'
  · subst hstar
    have hmem : '*' ∈ trim (back ++ ['*', high, low]) := mem_trim rfl (by simp)
    rw [parsePpos_star ρ hfront, fromStrRadix16_star hmem, if_neg (fun hboth => by cases hboth.2)]
  · have hbody' : '*' ∉ front ++ c' :: back := by
      intro hmem
      rcases List.mem_append.mp hmem with hmem | hmem
      · exact hfront hmem
      · rcases List.mem_cons.mp hmem with heq | hmem
        · exact hstar heq.symm
        · exact (hchars _ (List.mem_append_right _ (List.mem_cons_of_mem _ hmem))).1 rfl
    have hsum := checksumOf_replace front back (hchars c (by simp)).2 hascii hne
    have hline : front ++ c' :: (back ++ ['*', high, low]) = (front ++ c' :: back) ++ '*' :: [high, low] := by
      rw [List.append_assoc, List.cons_append]
    rw [hline, parsePpos_star ρ hbody', h.digits.1, hbody, if_neg]
    rintro ⟨-, heq⟩
    exact hsum (UInt8.toNat_inj.mp (Option.some.inj heq)).symm

/-- **What is parsed of a damaged sentence**: nothing, or what the sentence itself stores. -/
theorem Ppos.parse_damaged {damaged : Text} (hdamaged : Damaged line damaged) :
    parsePpos ρ damaged = none ∨ parsePpos ρ damaged = parsePpos ρ line := by
  cases hdamaged with
  | cut _ hcut _ =>
      obtain ⟨rest, hrest⟩ := hcut
      rw [h.line_eq] at hrest
      cases damaged with
      | nil => exact Or.inl rfl
      | cons d damaged =>
          obtain ⟨rfl, hbody⟩ := List.cons.inj hrest
          rcases List.append_eq_append_iff.mp hbody with ⟨more, hbody', -⟩ | ⟨more, rfl, hmore⟩
          · -- the line ends inside the body
            refine Or.inl (parsePpos_dollar ρ fun hmem => h.star_notMem ?_)
            rw [hbody']
            exact List.mem_append_left _ hmem
          · cases more with
            | nil =>
                rw [List.append_nil]
                exact Or.inl (parsePpos_dollar ρ h.star_notMem)
            | cons star more =>
                obtain ⟨rfl, -⟩ := List.cons.inj hmore
                exact h.same_body ρ more
  | replaced front c c' back heq hne hascii =>
      rw [h.line_eq] at heq
      cases front with
      | nil =>
          -- the dollar sign
          obtain ⟨rfl, -⟩ := List.cons.inj heq
          left
          unfold parsePpos
          split
          · rename_i hdollar
            exact absurd (List.cons.inj hdollar).1 hne
          · rfl
      | cons d front =>
          obtain ⟨rfl, hbody⟩ := List.cons.inj heq
          rcases List.append_eq_append_iff.mp hbody with ⟨more, rfl, hmore⟩ | ⟨more, hbody', hmore⟩
          · cases more with
            | nil =>
                obtain ⟨rfl, rfl⟩ := List.cons.inj hmore
                rw [List.append_nil]
                exact Or.inl (h.no_star ρ hne)
            | cons star more =>
                -- a digit of the checksum
                obtain ⟨rfl, -⟩ := List.cons.inj hmore
                rw [List.cons_append, List.append_assoc, List.cons_append]
                exact h.same_body ρ _
          · cases more with
            | nil =>
                obtain ⟨rfl, rfl⟩ := List.cons.inj hmore
                rw [List.append_nil] at hbody'
                rw [List.cons_append, ← hbody']
                exact Or.inl (h.no_star ρ hne)
            | cons b more =>
                obtain ⟨rfl, rfl⟩ := List.cons.inj hmore
                exact Or.inl (h.other_body ρ hbody' hne hascii)

end Position

/-! ## The other parsers -/

/-- The name of a sentence has none of the endings that the other parsers look for. -/
def Foreign (msg : Text) : Prop := ∀ e ∈ ["GGA".toList, "RMC".toList, "IMU".toList, "VTG".toList], ¬ e <:+ msg

theorem foreign_last {front : Text} {c : Char} (hc : c ∉ "ACUG".toList) : Foreign (front ++ [c]) := by
  intro e he hsuffix
  have hlast : ∀ e ∈ ["GGA".toList, "RMC".toList, "IMU".toList, "VTG".toList], ∀ d ∈ e.getLast?, d ∈ "ACUG".toList := by simp
  have hne : ∀ e ∈ ["GGA".toList, "RMC".toList, "IMU".toList, "VTG".toList], e ≠ [] := by decide
  obtain ⟨rest, hrest⟩ := hsuffix
  refine hc (hlast e he c ?_)
  have hwhole : (rest ++ e).getLast? = some c := by
    rw [hrest]
    exact List.getLast?_concat
  rwa [List.getLast?_append_of_ne_nil _ (hne e he)] at hwhole

theorem foreign_before (front : Text) {b : Char} (c : Char) (hb : b ∉ "GMT".toList) : Foreign (front ++ [b, c]) := by
  intro e he hsuffix
  have hbefore : ∀ e ∈ ["GGA".toList, "RMC".toList, "IMU".toList, "VTG".toList],
      e.length = 3 ∧ ∀ d ∈ e[1]?, d ∈ "GMT".toList := by simp
  obtain ⟨hlen, hsecond⟩ := hbefore e he
  have htail : [b, c] <:+ e := List.suffix_of_suffix_length_le (List.suffix_append front [b, c]) hsuffix (by
    rw [hlen]
    exact Nat.le_succ 2)
  obtain ⟨first, rfl⟩ := htail
  have hfirst : first.length = 1 := by
    rw [List.length_append] at hlen
    simpa using hlen
  refine hb (hsecond b ?_)
  rw [List.getElem?_append_right (by omega), hfirst]
  rfl

/-- The name of a sentence. -/
def msgOf (sentence : Text) : Text := (sentence.takeWhile (· ≠ '*')).takeWhile (· ≠ ',')

theorem fields_zero (sentence : Text) : (fields sentence)[0]? = some (msgOf sentence) := by
  have hsplit (s : Text) : (s.splitOn ',')[0]? = some (s.takeWhile (· ≠ ',')) := by
    induction s with
    | nil => rfl
    | cons c s ih =>
        rw [List.splitOn, List.splitOnP_cons_eq_if_modifyHead]
        by_cases hc : c = ','
        · subst hc
          rfl
        · have htake : (c :: s).takeWhile (· ≠ ',') = c :: s.takeWhile (· ≠ ',') := by simp [hc]
          rw [if_neg (by simpa using hc), htake]
          rw [List.splitOn] at ih
          cases hrest : s.splitOnP (· == ',') with
          | nil => exact absurd hrest (List.splitOnP_ne_nil _ s)
          | cons first rest =>
              rw [hrest] at ih
              rw [← Option.some.inj ih]
              rfl
  exact hsplit _

/-- A sentence with another name is read by none of the other parsers. -/
theorem others_none (ρ : Rounding) {sentence : Text} (h : sentence.head? = some '$' → Foreign (msgOf sentence)) :
    parseNmeaGps ρ sentence = none ∧ parsePimuXyz ρ sentence = none ∧ parseNmeaGpsSpeed ρ sentence = none := by
  by_cases hdollar : sentence.head? = some '$'
  · have hforeign := h hdollar
    have hgga : ¬ "GGA".toList <:+ msgOf sentence := hforeign _ (by decide)
    have hrmc : ¬ "RMC".toList <:+ msgOf sentence := hforeign _ (by decide)
    have hvtg : ¬ "VTG".toList <:+ msgOf sentence := hforeign _ (by decide)
    have hpimu : ¬ "PIMU".toList <:+ msgOf sentence := by
      intro hsuffix
      exact hforeign "IMU".toList (by decide) ((List.suffix_cons 'P' "IMU".toList).trans hsuffix)
    have hgps : gpsField (msgOf sentence) = none := by rw [gpsField, if_neg hgga, if_neg hrmc]
    have hspeed : speedField (msgOf sentence) = none := by rw [speedField, if_neg hrmc, if_neg hvtg]
    refine ⟨?_, ?_, ?_⟩
    · rw [parseNmeaGps, if_neg (not_not.mpr hdollar), fields_zero]
      simp [hgps]
    · rw [parsePimuXyz, if_neg (not_not.mpr hdollar), fields_zero]
      exact if_pos hpimu
    · rw [parseNmeaGpsSpeed, if_neg (not_not.mpr hdollar), fields_zero]
      simp [hspeed]
  · refine ⟨if_pos hdollar, if_pos hdollar, if_pos hdollar⟩

/-- The name stops at a comma or a star. -/
theorem msgOf_append {front : Text} (hfront : ∀ c ∈ front, c ≠ ',' ∧ c ≠ '*') {sep : Char} (hsep : sep = ',' ∨ sep = '*')
    (rest : Text) : msgOf (front ++ sep :: rest) = front := by
  have hstar : ∀ c ∈ front, decide (c ≠ '*') = true := fun c hc => decide_eq_true (hfront c hc).2
  have hcomma : ∀ c ∈ front, decide (c ≠ ',') = true := fun c hc => decide_eq_true (hfront c hc).1
  rw [msgOf, List.takeWhile_append_of_pos hstar]
  rcases hsep with rfl | rfl
  · rw [List.takeWhile_cons_of_pos (by decide), List.takeWhile_append_of_pos hcomma]
    simp
  · rw [List.takeWhile_cons_of_neg (by decide), List.append_nil]
    exact List.takeWhile_eq_self_iff.mpr hcomma

theorem takeWhile_prefix_takeWhile {p : Char → Bool} {s t : Text} (h : s <+: t) : s.takeWhile p <+: t.takeWhile p := by
  obtain ⟨rest, rfl⟩ := h
  rw [List.takeWhile_append]
  split
  · exact (List.takeWhile_prefix p).trans (List.prefix_append _ _)
  · exact List.prefix_refl _

/-- A prefix of the name is foreign. -/
theorem foreign_prefix {msg : Text} (h : msg <+: "$PPOS".toList) : Foreign msg := by
  have hall : ∀ m ∈ "$PPOS".toList.inits, ∀ e ∈ ["GGA".toList, "RMC".toList, "IMU".toList, "VTG".toList], ¬ e <:+ m := by decide
  exact hall msg ((List.mem_inits _ _).mpr h)

/-- The name of a sentence has no separator in it. -/
theorem name_chars : ∀ c ∈ "$PPOS".toList, c ≠ ',' ∧ c ≠ '*' := by simp

/-- A name with one character replaced is foreign. -/
theorem foreign_name {front back : Text} {c : Char} (h : "$PPOS".toList = front ++ c :: back) (c' : Char) (rest : Text) :
    Foreign (msgOf (front ++ c' :: (back ++ ',' :: rest))) := by
  have hfront : ∀ d ∈ front, d ≠ ',' ∧ d ≠ '*' := fun d hd => name_chars d (by rw [h]; exact List.mem_append_left _ hd)
  by_cases hsep : c' = ',' ∨ c' = '*'
  · rw [msgOf_append hfront hsep]
    exact foreign_prefix ⟨c :: back, h.symm⟩
  · have hwhole : ∀ d ∈ front ++ c' :: back, d ≠ ',' ∧ d ≠ '*' := by
      intro d hd
      rcases List.mem_append.mp hd with hd | hd
      · exact hfront d hd
      · rcases List.mem_cons.mp hd with rfl | hd
        · exact not_or.mp hsep
        · exact name_chars d (by rw [h]; exact List.mem_append_right _ (List.mem_cons_of_mem _ hd))
    rw [← List.cons_append, ← List.append_assoc, msgOf_append hwhole (Or.inl rfl)]
    rcases List.eq_nil_or_concat back with rfl | ⟨middle, last, rfl⟩
    · -- the last letter of the name
      have hname : "$PPO".toList ++ ['S'] = front ++ [c] := h
      rw [← (List.append_inj' hname rfl).1]
      exact foreign_before "$PP".toList c' (b := 'O') (by decide)
    · rw [List.concat_eq_append] at h ⊢
      have hname : "$PPO".toList ++ ['S'] = (front ++ c :: middle) ++ [last] := by
        rw [List.append_assoc]
        exact h
      obtain rfl : 'S' = last := (List.cons.inj (List.append_inj' hname rfl).2).1
      rw [← List.cons_append, ← List.append_assoc]
      exact foreign_last (by decide)

/-- A name that runs on into a number or nothing is foreign. -/
theorem foreign_glued {f : Text} (hf : Field f) {c' : Char} (hne : c' ≠ ',') (rest : Text) :
    Foreign (msgOf ("$PPOS".toList ++ c' :: (f ++ ',' :: rest))) := by
  by_cases hstar : c' = '*'
  · rw [msgOf_append name_chars (Or.inr hstar)]
    exact foreign_prefix (List.prefix_refl _)
  · have hwhole : ∀ d ∈ "$PPOS".toList ++ c' :: f, d ≠ ',' ∧ d ≠ '*' := by
      intro d hd
      rcases List.mem_append.mp hd with hd | hd
      · exact name_chars d hd
      · rcases List.mem_cons.mp hd with rfl | hd
        · exact ⟨hne, hstar⟩
        · exact ⟨(hf.chars d hd).1, (hf.chars d hd).2.1⟩
    rw [← List.cons_append, ← List.append_assoc, msgOf_append hwhole (Or.inl rfl)]
    rcases hf with rfl | hnumber
    · exact foreign_before "$PPO".toList c' (b := 'S') (by decide)
    · obtain ⟨middle, last, rfl, hlast⟩ := isNumber_last hnumber
      have hletters : ∀ d ∈ "ACUG".toList, ¬ (Decimal d ∨ d.toLower ∈ "fyn".toList) := by
        simp [Decimal, isDigit]
      rw [← List.cons_append, ← List.append_assoc]
      exact foreign_last fun hmem => hletters last hmem hlast

/-- **No damaged position sentence** is read by another parser. -/
theorem Ppos.foreign_damaged {line : Text} {texts : List Text} {high low : Char} (h : Ppos line texts high low)
    {damaged : Text} (hdamaged : Damaged line damaged) : damaged.head? = some '$' → Foreign (msgOf damaged) := by
  obtain ⟨f, rest, hfield, hline⟩ : ∃ f rest, Field f ∧ line = "$PPOS".toList ++ ',' :: (f ++ ',' :: rest) := by
    have hcount := h.count
    have heach := h.each
    have hshape := h.line_eq
    rcases texts with _ | ⟨f, _ | ⟨g, more⟩⟩
    · cases hcount
    · cases hcount
    · refine ⟨f, g ++ (more.flatMap fun f => ',' :: f) ++ ['*', high, low], heach f List.mem_cons_self, ?_⟩
      rw [hshape, pposBody]
      simp
  have hname : msgOf line = "$PPOS".toList := by rw [hline, msgOf_append name_chars (Or.inl rfl)]
  intro _
  cases hdamaged with
  | cut _ hcut _ =>
      refine foreign_prefix ?_
      rw [← hname]
      exact takeWhile_prefix_takeWhile (takeWhile_prefix_takeWhile hcut)
  | replaced front c c' back heq hne hascii =>
      rw [hline] at heq
      rcases List.append_eq_append_iff.mp heq with ⟨more, rfl, hmore⟩ | ⟨more, hfront, hmore⟩
      · cases more with
        | nil =>
            obtain ⟨rfl, rfl⟩ := List.cons.inj hmore
            rw [List.append_nil]
            exact foreign_glued hfield hne rest
        | cons comma more =>
            obtain ⟨rfl, -⟩ := List.cons.inj hmore
            rw [List.append_assoc, List.cons_append, msgOf_append name_chars (Or.inl rfl)]
            exact foreign_prefix (List.prefix_refl _)
      · cases more with
        | nil =>
            obtain ⟨rfl, rfl⟩ := List.cons.inj hmore
            rw [List.append_nil] at hfront
            rw [← hfront]
            exact foreign_glued hfield hne rest
        | cons b more =>
            obtain ⟨rfl, rfl⟩ := List.cons.inj hmore
            exact foreign_name hfront c' _

/-- **A damaged position sentence changes nothing**, or stores what the sentence itself does; no other parser reads it. -/
theorem damaged_position (ρ : Rounding) {line : Text} {texts : List Text} {high low : Char} (h : Ppos line texts high low)
    {damaged : Text} (hdamaged : Damaged line damaged) :
    (∀ external, updateFromSentence ρ external damaged = external ∨
      updateFromSentence ρ external damaged = updateFromSentence ρ external line) ∧
      parseNmeaGps ρ damaged = none ∧ parsePimuXyz ρ damaged = none ∧ parseNmeaGpsSpeed ρ damaged = none := by
  obtain ⟨hgps, hpimu, hspeed⟩ := others_none ρ (h.foreign_damaged hdamaged)
  refine ⟨?_, hgps, hpimu, hspeed⟩
  intro external
  rcases h.parse_damaged ρ hdamaged with hnone | hsame
  · left
    unfold updateFromSentence
    rw [hnone, hgps, hpimu, hspeed]
    exact ite_self _
  · right
    have hdamagedNe : damaged ≠ [] := by
      rintro rfl
      rw [h.parse] at hsame
      cases hsame
    have hlineNe : line ≠ [] := by
      rw [h.line_eq]
      exact List.cons_ne_nil _ _
    rw [h.parse] at hsame
    rw [updateFromSentence, updateFromSentence, if_neg hdamagedNe, if_neg hlineNe, hsame, h.parse]

/-- The sentence without a solution. -/
theorem noSolution : Ppos "$PPOS,,,,,0,*2C".toList [[], [], [], [], ['0'], []] '2' 'C' where
  line_eq := by decide
  count := rfl
  each := by
    unfold Field
    decide
  checksum := ⟨2, 12, by decide, by decide, by decide⟩

theorem damaged_position_digit :
    (∀ external, updateFromSentence ⟨fun _ => some 0, fun _ => some 0, id⟩ external "$PPOS,,,,,1,*2C".toList = external ∨
      updateFromSentence ⟨fun _ => some 0, fun _ => some 0, id⟩ external "$PPOS,,,,,1,*2C".toList =
        updateFromSentence ⟨fun _ => some 0, fun _ => some 0, id⟩ external "$PPOS,,,,,0,*2C".toList) ∧
      parseNmeaGps ⟨fun _ => some 0, fun _ => some 0, id⟩ "$PPOS,,,,,1,*2C".toList = none ∧
      parsePimuXyz ⟨fun _ => some 0, fun _ => some 0, id⟩ "$PPOS,,,,,1,*2C".toList = none ∧
      parseNmeaGpsSpeed ⟨fun _ => some 0, fun _ => some 0, id⟩ "$PPOS,,,,,1,*2C".toList = none :=
  damaged_position _ noSolution
    (.replaced "$PPOS,,,,,".toList '0' '1' ",*2C".toList (by decide) (by decide) (by decide))

end Lhre.Bevo.Nmea
