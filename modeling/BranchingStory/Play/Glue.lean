import BranchingStory.Text.Cut

/-
  This file joins rendered lines.  Blank lines are dropped.  A
  line is glued to the next one if it ends with glue or the
  next one begins with it; all other lines end with a line
  feed.

  Key definitions include:
    * `RenderedLine`
    * `OutputLine`
    * `joined`
    * `endLine`
    * `joinLines`
-/

------------------------------------------------------------
-- Lines
------------------------------------------------------------

namespace BranchingStory

/- A line of text with its glue and its tags. -/
structure RenderedLine where
  text : String
  glueBegin : Bool
  glueEnd : Bool
  tags : List String
deriving DecidableEq, Repr

/- A piece of text that is handed to the player. -/
structure OutputLine where
  text : String
  tags : List String
deriving DecidableEq, Repr

namespace RenderedLine

/- Whether a line holds nothing but blanks. -/
def isBlank
    (l : RenderedLine) : Bool :=
  isBlankText l.text.toList

end RenderedLine

end BranchingStory

------------------------------------------------------------
-- Joints
------------------------------------------------------------

namespace BranchingStory

/- Whether a text ends with a blank of width one. -/
def endsWithSpace
    (s : String) : Bool :=
  s.toList.getLast? = some ' '

/- Whether a text begins with a blank of width one. -/
def beginsWithSpace
    (s : String) : Bool :=
  s.toList.head? = some ' '

/-
  The text of a line in front of a next line.  Glued lines
  keep their text as it is, but if either side of the joint
  has a blank, exactly one remains.
-/
def joined
    (l next : RenderedLine) : String :=
  if l.glueEnd || next.glueBegin then
    if endsWithSpace l.text || beginsWithSpace next.text then
      trimString l.text ++ " "
    else l.text
  else trimString l.text ++ "\n"

/- The text of the last line. -/
def endLine
    (l : RenderedLine) : String :=
  trimString l.text ++ "\n"

/- Join lines none of which is blank. -/
def joinKept : List RenderedLine → List OutputLine
  | [] => []
  | [l] => [⟨endLine l, l.tags⟩]
  | l :: next :: rest =>
      ⟨joined l next, l.tags⟩ :: joinKept (next :: rest)

/- Drop the blank lines and join the others. -/
def joinLines
    (ls : List RenderedLine) : List OutputLine :=
  joinKept (ls.filter fun l => !l.isBlank)

end BranchingStory
