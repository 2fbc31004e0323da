import BranchingStory.Text.Cut

/-
  This file finds out which characters of a line are marks and
  which are shielded by braces, escapes, quotes or
  parentheses, and cuts lines at their marks.

  Key definitions include:
    * `Marked`
    * `topLevel`
    * `braceLevel`
    * `Marked.split`
    * `Marked.cut?`
    * `Marked.splitArrows`
    * `takeBraced?`
-/

------------------------------------------------------------
-- Open And Shielded Characters
------------------------------------------------------------

namespace BranchingStory

/-
  A text whose characters are told apart: those that are open
  can be marks, and those that are shielded cannot.
-/
abbrev Marked :=
  List (Char × Bool)

/-
  Mark the characters outside braces.  Quotes shield only
  within braces.  A backslash shields itself and the character
  after it, and braces are shielded themselves.  A brace that
  closes too much shields all that follows until as many are
  opened.
-/
def topLevelFrom
    (depth : Int)
    (quoted : Bool) : List Char → Marked
  | [] => []
  | ['\\'] => [('\\', false)]
  | '\\' :: c :: rest =>
      ('\\', false) :: (c, false) ::
        topLevelFrom depth quoted rest
  | c :: rest =>
      if quoted then
        (c, false) :: topLevelFrom depth (c != '"') rest
      else if c = '{' then
        (c, false) :: topLevelFrom (depth + 1) false rest
      else if c = '}' then
        (c, false) :: topLevelFrom (depth - 1) false rest
      else if c = '"' ∧ 0 < depth then
        (c, false) :: topLevelFrom depth true rest
      else
        (c, depth = 0) :: topLevelFrom depth false rest

/- Mark the characters of a line that are outside braces. -/
def topLevel
    (cs : List Char) : Marked :=
  topLevelFrom 0 false cs

/-
  Mark the characters of a text between braces that are
  outside quotes, parentheses and further braces.
-/
def braceLevelFrom
    (depth parens : Int)
    (quoted : Bool) : List Char → Marked
  | [] => []
  | ['\\'] => [('\\', false)]
  | '\\' :: c :: rest =>
      ('\\', false) :: (c, false) ::
        braceLevelFrom depth parens quoted rest
  | c :: rest =>
      if quoted then
        (c, false) ::
          braceLevelFrom depth parens (c != '"') rest
      else if c = '"' then
        (c, false) :: braceLevelFrom depth parens true rest
      else if c = '{' then
        (c, false) ::
          braceLevelFrom (depth + 1) parens false rest
      else if c = '}' then
        (c, false) ::
          braceLevelFrom (depth - 1) parens false rest
      else if c = '(' then
        (c, false) ::
          braceLevelFrom depth (parens + 1) false rest
      else if c = ')' then
        (c, false) ::
          braceLevelFrom depth (parens - 1) false rest
      else
        (c, depth = 0 ∧ parens = 0) ::
          braceLevelFrom depth parens false rest

/- Mark the open characters of a text between braces. -/
def braceLevel
    (cs : List Char) : Marked :=
  braceLevelFrom 0 0 false cs

end BranchingStory

------------------------------------------------------------
-- Cutting At Marks
------------------------------------------------------------

namespace BranchingStory

namespace Marked

/- The characters without their marking. -/
def chars
    (ms : Marked) : List Char :=
  ms.map Prod.fst

/- How often a character stands open. -/
def countOpen
    (c : Char)
    (ms : Marked) : Nat :=
  ms.countP fun m => m.2 && m.1 == c

/- The parts between the open occurrences of a character. -/
def split
    (mark : Char) : Marked → List (List Char)
  | [] => [[]]
  | (c, isOpen) :: rest =>
      if isOpen && c == mark then [] :: split mark rest
      else consToFirst c (split mark rest)

/- The parts around the first open occurrence. -/
def cut?
    (mark : Char) : Marked → Option (Marked × Marked)
  | [] => none
  | (c, isOpen) :: rest =>
      if isOpen && c == mark then some ([], rest)
      else
        (cut? mark rest).map fun (before, after) =>
          ((c, isOpen) :: before, after)

/- The parts between the arrows that begin open. -/
def splitArrows : Marked → List (List Char)
  | [] => [[]]
  | ('-', true) :: ('>', _) :: rest =>
      [] :: splitArrows rest
  | (c, _) :: rest => consToFirst c (splitArrows rest)

end Marked

end BranchingStory

------------------------------------------------------------
-- Braces
------------------------------------------------------------

namespace BranchingStory

/- Put characters in front of the first of two parts. -/
def consBefore
    (cs : List Char)
    (parts : List Char × List Char) :
    List Char × List Char :=
  (cs ++ parts.1, parts.2)

/-
  The text up to the brace that closes an open one, and the
  text after that brace.  The depth counts further braces that
  have been opened within.
-/
def takeBraced?
    (depth : Nat)
    (quoted : Bool) :
    List Char → Option (List Char × List Char)
  | [] => none
  | ['\\'] => none
  | '\\' :: c :: rest =>
      (takeBraced? depth quoted rest).map
        (consBefore ['\\', c])
  | c :: rest =>
      if quoted then
        (takeBraced? depth (c != '"') rest).map
          (consBefore [c])
      else if c = '"' then
        (takeBraced? depth true rest).map (consBefore [c])
      else if c = '{' then
        (takeBraced? (depth + 1) false rest).map
          (consBefore [c])
      else if c = '}' then
        match depth with
        | 0 => some ([], rest)
        | d + 1 =>
            (takeBraced? d false rest).map (consBefore [c])
      else
        (takeBraced? depth false rest).map (consBefore [c])

end BranchingStory
