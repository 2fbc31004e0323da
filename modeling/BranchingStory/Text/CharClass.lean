import BranchingStory.Text.Alphanumeric

/-
  This file holds the character classes that script text is
  read by: blanks, word characters and decimal digits.

  Key definitions include:
    * `isBlank`
    * `isWordChar`
    * `digitZeros`
    * `digitValue?`
    * `isDigit`
-/

------------------------------------------------------------
-- Blanks And Word Characters
------------------------------------------------------------

namespace BranchingStory

/-
  White space of every script, the four information separators
  and the next-line control among it.  Characters of no width
  are not blank.
-/
def isBlank
    (c : Char) : Bool :=
  let n := c.toNat
  (9 ≤ n && n ≤ 13) || (28 ≤ n && n ≤ 32) ||
    n == 0x85 || n == 0xA0 || n == 0x1680 ||
    (0x2000 ≤ n && n ≤ 0x200A) ||
    n == 0x2028 || n == 0x2029 || n == 0x202F ||
    n == 0x205F || n == 0x3000

/- The characters that names are made of. -/
def isWordChar
    (c : Char) : Bool :=
  isAlphanumeric c || c == '_'

end BranchingStory

------------------------------------------------------------
-- Decimal Digits
------------------------------------------------------------

namespace BranchingStory

/-
  The digits zero beyond ASCII.  The other nine digits of each
  script follow its zero.
-/
def digitZeros : List Nat :=
  [0x660, 0x6F0, 0x7C0, 0x966, 0x9E6, 0xA66, 0xAE6, 0xB66,
  0xBE6, 0xC66, 0xCE6, 0xD66, 0xDE6, 0xE50, 0xED0, 0xF20,
  0x1040, 0x1090, 0x17E0, 0x1810, 0x1946, 0x19D0, 0x1A80,
  0x1A90, 0x1B50, 0x1BB0, 0x1C40, 0x1C50, 0xA620, 0xA8D0,
  0xA900, 0xA9D0, 0xA9F0, 0xAA50, 0xABF0, 0xFF10, 0x104A0,
  0x10D30, 0x11066, 0x110F0, 0x11136, 0x111D0, 0x112F0,
  0x11450, 0x114D0, 0x11650, 0x116C0, 0x11730, 0x118E0,
  0x11950, 0x11C50, 0x11D50, 0x11DA0, 0x16A60, 0x16AC0,
  0x16B50, 0x1D7CE, 0x1D7D8, 0x1D7E2, 0x1D7EC, 0x1D7F6,
  0x1E140, 0x1E2F0, 0x1E950, 0x1FBF0]

/- The value of a decimal digit of any script. -/
def digitValue?
    (c : Char) : Option Nat :=
  let n := c.toNat
  if 48 ≤ n && n ≤ 57 then some (n - 48)
  else if n < 128 then none
  else
    (digitZeros.find? fun z => z ≤ n && n ≤ z + 9).map
      fun z => n - z

/- The decimal digits of every script. -/
def isDigit
    (c : Char) : Bool :=
  (digitValue? c).isSome

end BranchingStory
