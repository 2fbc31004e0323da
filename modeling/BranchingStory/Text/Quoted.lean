import BranchingStory.Text.Printable

/-
  This file writes texts in quotes.  Single quotes are taken
  unless the text holds single and no double ones.  What is
  not printable is written by its code point.

  Key definitions include:
    * `hexDigits`
    * `quotedChar`
    * `quotedText`
-/

------------------------------------------------------------
-- Quoted Texts
------------------------------------------------------------

namespace BranchingStory

/- The last digits of a number to base sixteen. -/
def hexDigits
    (width n : Nat) : List Char :=
  let ds := Nat.toDigits 16 n
  List.replicate (width - ds.length) '0' ++ ds

/- A character as it stands in a text within given quotes. -/
def quotedChar
    (quote c : Char) : List Char :=
  if c = quote ∨ c = '\\' then ['\\', c]
  else if c = '\n' then ['\\', 'n']
  else if c = '\r' then ['\\', 'r']
  else if c = '\t' then ['\\', 't']
  else if isPrintable c then [c]
  else if c.toNat < 0x100 then
    '\\' :: 'x' :: hexDigits 2 c.toNat
  else if c.toNat < 0x10000 then
    '\\' :: 'u' :: hexDigits 4 c.toNat
  else '\\' :: 'U' :: hexDigits 8 c.toNat

/- A text in quotes. -/
def quotedText
    (s : String) : String :=
  let cs := s.toList
  let quote :=
    if cs.contains '\'' && !cs.contains '"' then '"'
    else '\''
  String.ofList
    (quote :: cs.flatMap (quotedChar quote) ++ [quote])

end BranchingStory
