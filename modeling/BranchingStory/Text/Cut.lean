import BranchingStory.Text.CharClass

/-
  This file cuts texts, given as lists of characters: blanks
  are trimmed from their ends, and they are split into lines
  or at a mark.

  Key definitions include:
    * `trimStart`
    * `trimEnd`
    * `trim`
    * `isLineBreak`
    * `splitLines`
    * `unifyLineEnds`
    * `breakAt`
    * `splitAtMark`
    * `stripStart?`
    * `dropGlue`
-/

------------------------------------------------------------
-- Trimming
------------------------------------------------------------

namespace BranchingStory

/- The text without the blanks that it begins with. -/
def trimStart
    (cs : List Char) : List Char :=
  cs.dropWhile isBlank

/- The text without the blanks that it ends with. -/
def trimEnd
    (cs : List Char) : List Char :=
  (cs.reverse.dropWhile isBlank).reverse

/- The text without the blanks at its two ends. -/
def trim
    (cs : List Char) : List Char :=
  trimEnd (trimStart cs)

/- A text that holds nothing but blanks. -/
def isBlankText
    (cs : List Char) : Bool :=
  cs.all isBlank

/- `trim` on strings. -/
def trimString
    (s : String) : String :=
  String.ofList (trim s.toList)

end BranchingStory

------------------------------------------------------------
-- Lines
------------------------------------------------------------

namespace BranchingStory

/-
  The characters that end a line.  A carriage return followed
  by a line feed ends one line, not two.
-/
def isLineBreak
    (c : Char) : Bool :=
  let n := c.toNat
  (10 ≤ n && n ≤ 13) || (28 ≤ n && n ≤ 30) ||
    n == 0x85 || n == 0x2028 || n == 0x2029

/- Put a character in front of the first line. -/
def consToFirst
    (c : Char) : List (List Char) → List (List Char)
  | [] => [[c]]
  | line :: lines => (c :: line) :: lines

/-
  The lines of a text, without their line breaks.  A break at
  the very end opens no further line.
-/
def splitLines : List Char → List (List Char)
  | [] => []
  | '\r' :: '\n' :: rest => [] :: splitLines rest
  | c :: rest =>
      if isLineBreak c then [] :: splitLines rest
      else consToFirst c (splitLines rest)

/-
  Every carriage return, with the line feed that may follow
  it, becomes one line feed.
-/
def unifyLineEnds : List Char → List Char
  | [] => []
  | '\r' :: '\n' :: rest => '\n' :: unifyLineEnds rest
  | c :: rest =>
      (if c = '\r' then '\n' else c) :: unifyLineEnds rest

end BranchingStory

------------------------------------------------------------
-- Marks
------------------------------------------------------------

namespace BranchingStory

/-
  The text before the first occurrence of a mark and the text
  after it.  The second part is missing if the mark is.
-/
def breakAt
    (mark : Char) :
    List Char → List Char × Option (List Char)
  | [] => ([], none)
  | c :: rest =>
      if c = mark then ([], some rest)
      else
        let (before, after) := breakAt mark rest
        (c :: before, after)

/- The parts of a text between the occurrences of a mark. -/
def splitAtMark
    (mark : Char) : List Char → List (List Char)
  | [] => [[]]
  | c :: rest =>
      if c = mark then [] :: splitAtMark mark rest
      else consToFirst c (splitAtMark mark rest)

/- What follows a given beginning, if the text has it. -/
def stripStart? :
    List Char → List Char → Option (List Char)
  | [], cs => some cs
  | _ :: _, [] => none
  | p :: ps, c :: cs =>
      if p = c then stripStart? ps cs else none

/- The text with every occurrence of `<>` taken out. -/
def dropGlue : List Char → List Char
  | [] => []
  | '<' :: '>' :: rest => dropGlue rest
  | c :: rest => c :: dropGlue rest

end BranchingStory
