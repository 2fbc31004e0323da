import BranchingStory.Json.Reader
import BranchingStory.Json.Writer
import Mathlib.Data.Nat.Basic

/-
  This file shows that every string is read back from its JSON
  text.  A character is written as one or two units of sixteen
  bits, and the units are joined again when they are read.

  Key definitions include:
    * `charUnits`

  Key theorems include:
    * `hexUnit?_hexDigits`
    * `joinUnits_charUnits`
    * `readUnits_jsonChar`
    * `readJsonString_append`
-/

------------------------------------------------------------
-- Units In Digits
------------------------------------------------------------

namespace BranchingStory

/- A digit to base sixteen is read as its value. -/
theorem hexValue?_digitChar
    {d : Nat}
    (hDigit : d < 16) :
    hexValue? d.digitChar = some d := by
  have hAll : ∀ d < 16, hexValue? d.digitChar = some d := by
    decide
  exact hAll d hDigit

/- A unit of sixteen bits has four digits. -/
theorem hexDigits_of_lt
    {u : Nat}
    (hUnit : u < 0x10000) :
    hexDigits 4 u =
      [(u / 4096).digitChar, (u / 256 % 16).digitChar,
        (u / 16 % 16).digitChar, (u % 16).digitChar] := by
  have hZero {n : Nat} (hNone : n = 0) :
      n.digitChar = '0' := by
    rw [hNone]
    rfl
  rw [hexDigits]
  rcases Nat.lt_or_ge u 16 with hOne | hMore
  · rw [Nat.toDigits_of_lt_base hOne,
      hZero (n := u / 4096) (by omega),
      hZero (n := u / 256 % 16) (by omega),
      hZero (n := u / 16 % 16) (by omega),
      Nat.mod_eq_of_lt hOne]
    rfl
  · rw [Nat.toDigits_of_base_le (by decide) hMore]
    rcases Nat.lt_or_ge (u / 16) 16 with hTwo | hMore
    · rw [Nat.toDigits_of_lt_base hTwo,
        hZero (n := u / 4096) (by omega),
        hZero (n := u / 256 % 16) (by omega),
        Nat.mod_eq_of_lt hTwo]
      rfl
    · rw [Nat.toDigits_of_base_le (by decide) hMore,
        Nat.div_div_eq_div_mul]
      rcases Nat.lt_or_ge (u / (16 * 16)) 16 with
        hThree | hMore
      · rw [Nat.toDigits_of_lt_base hThree,
          hZero (n := u / 4096) (by omega),
          show u / 256 % 16 = u / (16 * 16) by omega]
        rfl
      · rw [Nat.toDigits_of_base_le (by decide) hMore,
          Nat.div_div_eq_div_mul,
          Nat.toDigits_of_lt_base (by omega)]
        rfl

/- A unit is read from its digits. -/
theorem hexUnit?_hexDigits
    {u : Nat}
    (hUnit : u < 0x10000) :
    ∃ a b c d, hexDigits 4 u = [a, b, c, d] ∧
      hexUnit? a b c d = some u := by
  refine ⟨_, _, _, _, hexDigits_of_lt hUnit, ?_⟩
  rw [hexUnit?, hexValue?_digitChar (by omega),
    hexValue?_digitChar (by omega),
    hexValue?_digitChar (by omega),
    hexValue?_digitChar (by omega)]
  refine congrArg some ?_
  omega

end BranchingStory

------------------------------------------------------------
-- Units Of Characters
------------------------------------------------------------

namespace BranchingStory

/-
  The units of a character: its number, or beyond the basic
  plane a pair of halves.
-/
def charUnits
    (c : Char) : List Nat :=
  let n := c.toNat
  if n < 0x10000 then [n]
  else
    [0xD800 + (n - 0x10000) / 0x400,
      0xDC00 + (n - 0x10000) % 0x400]

/- The number of a character is no half of a pair. -/
theorem toNat_range
    (c : Char) :
    c.toNat < 0xD800 ∨ 0xE000 ≤ c.toNat ∧ c.toNat < 0x110000 := by
  have hValid := c.valid
  change c.toNat < 0xD800 ∨
    0xDFFF < c.toNat ∧ c.toNat < 0x110000 at hValid
  omega

/- The units of characters are joined to the characters. -/
theorem joinUnits_charUnits
    (c : Char)
    (us : List Nat) :
    joinUnits (charUnits c ++ us) = c :: joinUnits us := by
  have hRange := toNat_range c
  rw [charUnits]
  split
  · have hSelf : unitChar c.toNat = c := by
      rw [unitChar, if_neg (by omega), Char.ofNat_toNat]
    cases us with
    | nil => rw [List.append_nil, joinUnits, joinUnits, hSelf]
    | cons v us =>
        rw [List.singleton_append, joinUnits,
          if_neg (by omega), hSelf]
  · have hPair :
        0x10000 +
            (0xD800 + (c.toNat - 0x10000) / 0x400 - 0xD800) *
              0x400 +
            (0xDC00 + (c.toNat - 0x10000) % 0x400 - 0xDC00) =
          c.toNat := by
      omega
    rw [List.cons_append, List.singleton_append, joinUnits,
      if_pos (by omega), hPair, Char.ofNat_toNat]

/- The units of a text are joined to the text. -/
theorem joinUnits_flatMap
    (cs : List Char) :
    joinUnits (cs.flatMap charUnits) = cs := by
  induction cs with
  | nil => rfl
  | cons c cs ih =>
      rw [List.flatMap_cons, joinUnits_charUnits, ih]

end BranchingStory

------------------------------------------------------------
-- Reading Strings
------------------------------------------------------------

namespace BranchingStory

variable {opening : Nat}
variable {us : List Nat}
variable {tail rest : List Char}

/- A unit is read from its escape. -/
theorem readUnits_unitEscape
    {u : Nat}
    (hUnit : u < 0x10000)
    (hTail : readUnits opening tail = .ok (us, rest)) :
    readUnits opening (unitEscape u ++ tail) =
      .ok (u :: us, rest) := by
  rcases hexUnit?_hexDigits hUnit with
    ⟨a, b, c, d, hDigits, hValue⟩
  have hSome : tail.isEmpty = false := by
    cases tail with
    | nil => cases hTail
    | cons c tail => rfl
  rw [unitEscape, hDigits]
  simp only [List.cons_append, List.nil_append, readUnits,
    hValue, hSome, hTail]

/- A simple escape is read as the character that it means. -/
theorem readUnits_escape
    {c c' : Char}
    (hEscape : simpleEscape? c = some c')
    (hTail : readUnits opening tail = .ok (us, rest)) :
    readUnits opening ('\\' :: c :: tail) =
      .ok (c'.toNat :: us, rest) := by
  have hLetter : c ≠ 'u' := by
    rintro rfl
    cases hEscape
  simp [readUnits, hLetter, hEscape, hTail]

/- A character is read as its units. -/
theorem readUnits_jsonChar
    (c : Char)
    (hTail : readUnits opening tail = .ok (us, rest)) :
    readUnits opening (jsonChar c ++ tail) =
      .ok (charUnits c ++ us, rest) := by
  have hRange := toNat_range c
  by_cases hBeyond : 0x10000 ≤ c.toNat
  · -- a pair of halves
    have hOther (d : Char) (hSmall : d.toNat < 127) : c ≠ d := by
      rintro rfl
      omega
    rw [charUnits, if_neg (Nat.not_lt.mpr hBeyond), jsonChar,
      if_neg (not_or.mpr
        ⟨hOther _ (by decide), hOther _ (by decide)⟩),
      if_neg (by omega), if_neg (hOther _ (by decide)),
      if_neg (hOther _ (by decide)),
      if_neg (hOther _ (by decide)), if_neg (by omega),
      if_neg (by omega), if_neg (by omega), List.append_assoc]
    exact readUnits_unitEscape (by omega)
      (readUnits_unitEscape (by omega) hTail)
  have hUnit : c.toNat < 0x10000 := Nat.not_le.mp hBeyond
  rw [charUnits, if_pos hUnit, jsonChar]
  by_cases hQuote : c = '"' ∨ c = '\\'
  · rw [if_pos hQuote]
    rcases hQuote with rfl | rfl
    · exact readUnits_escape rfl hTail
    · exact readUnits_escape rfl hTail
  rw [if_neg hQuote]
  rw [not_or] at hQuote
  by_cases hPlain : 32 ≤ c.toNat ∧ c.toNat < 127
  · have hControl : ¬ c.toNat < 32 := Nat.not_lt.mpr hPlain.1
    rw [if_pos hPlain]
    simp [readUnits, hQuote.1, hQuote.2, hControl, hTail]
  rw [if_neg hPlain]
  by_cases hLine : c = '\n'
  · rw [if_pos hLine, hLine]
    exact readUnits_escape rfl hTail
  rw [if_neg hLine]
  by_cases hReturn : c = '\r'
  · rw [if_pos hReturn, hReturn]
    exact readUnits_escape rfl hTail
  rw [if_neg hReturn]
  by_cases hTab : c = '\t'
  · rw [if_pos hTab, hTab]
    exact readUnits_escape rfl hTail
  rw [if_neg hTab]
  by_cases hBack : c.toNat = 8
  · have hEscape : simpleEscape? 'b' = some '\x08' := rfl
    rw [if_pos hBack, hBack]
    exact readUnits_escape hEscape hTail
  rw [if_neg hBack]
  by_cases hPage : c.toNat = 12
  · have hEscape : simpleEscape? 'f' = some '\x0c' := rfl
    rw [if_pos hPage, hPage]
    exact readUnits_escape hEscape hTail
  rw [if_neg hPage, if_pos hUnit]
  exact readUnits_unitEscape hUnit hTail

/- The units of a text are read up to its closing quote. -/
theorem readUnits_flatMap
    (cs : List Char) :
    readUnits opening
        (cs.flatMap jsonChar ++ '"' :: rest) =
      .ok (cs.flatMap charUnits, rest) := by
  induction cs with
  | nil => rfl
  | cons c cs ih =>
      rw [List.flatMap_cons, List.append_assoc,
        readUnits_jsonChar c ih, List.flatMap_cons]

/- A string is read back from what is between its quotes. -/
theorem readJsonString_append
    (s : String)
    (rest : List Char) :
    readJsonString
        (s.toList.flatMap jsonChar ++ '"' :: rest) =
      .ok (s, rest) := by
  rw [readJsonString, readUnits_flatMap]
  dsimp only
  rw [joinUnits_flatMap, String.ofList_toList]

end BranchingStory
