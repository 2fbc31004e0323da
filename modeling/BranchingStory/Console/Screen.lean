import BranchingStory.Play.Glue
import BranchingStory.Play.State
import BranchingStory.Text.Paragraph

/-
  This file lays out what a player sees: headings, paragraphs,
  choices and locations.

  Key definitions include:
    * `screenWidth`
    * `paragraphs`
    * `choiceText`
    * `headingText`
    * `choicesText`
    * `locationText`
    * `firstPage`
-/

------------------------------------------------------------
-- Paragraphs
------------------------------------------------------------

namespace BranchingStory

/- The greatest length of a line on the screen. -/
def screenWidth : Nat :=
  78

/- Tags as they are shown, in a row. -/
def tagsText
    (tags : List String) : String :=
  " ".intercalate (tags.map fun tag => "#" ++ tag)

/- The paragraph of some texts and the tags that go with it. -/
def paragraphText
    (showTags : Bool)
    (texts tags : List String) : String :=
  let s :=
    Paragraph.fill screenWidth (by decide)
      (trimString (String.join texts))
  if showTags && !tags.isEmpty then s ++ "\n" ++ tagsText tags
  else s

/-
  The paragraphs of some lines, given the texts and tags of the
  paragraph that is open.  A line break ends a paragraph.
-/
def paragraphsFrom
    (showTags : Bool)
    (texts tags : List String) :
    List OutputLine → List String
  | [] =>
      if texts.isEmpty then []
      else [paragraphText showTags texts tags]
  | l :: ls =>
      let texts := texts ++ [l.text]
      let tags := tags ++ l.tags
      if l.text.toList.getLast? = some '\n' then
        paragraphText showTags texts tags ::
          paragraphsFrom showTags [] [] ls
      else paragraphsFrom showTags texts tags ls

/- The paragraphs of some lines. -/
def paragraphs
    (showTags : Bool)
    (ls : List OutputLine) : List String :=
  paragraphsFrom showTags [] [] ls

/-
  The paragraphs that are shown at once, and those that wait
  for the player.
-/
def firstPage
    (stepwise : Bool)
    (ps : List String) : List String × List String :=
  if stepwise then ps.splitAt 1 else (ps, [])

end BranchingStory

------------------------------------------------------------
-- Headings, Choices And Locations
------------------------------------------------------------

namespace BranchingStory

/- A text as a line of its own. -/
def asLine
    (s : String) : String :=
  s ++ "\n"

/- A heading, set off by an empty line. -/
def headingText
    (title : String) : String :=
  asLine s!"\n=== {title} ==="

/- A choice with its number, and maybe with its tags. -/
def choiceText
    (showTags : Bool)
    (number : Nat)
    (x : Offer) : String :=
  let label := s!"{number}. {x.text}"
  if showTags && !x.tags.isEmpty then
    label ++ "  " ++ tagsText x.tags
  else label

/- The lines of choices, numbered from a number on. -/
def choiceLines
    (showTags : Bool)
    (number : Nat) : List Offer → String
  | [] => ""
  | x :: xs =>
      asLine (choiceText showTags number x) ++
        choiceLines showTags (number + 1) xs

/- All choices, set off by an empty line. -/
def choicesText
    (showTags : Bool)
    (xs : List Offer) : String :=
  if xs.isEmpty then ""
  else asLine "" ++ choiceLines showTags 1 xs

/- A knot, or a stitch of it, as a location. -/
def locationText
    (knot : String)
    (stitch : Option String) : String :=
  let place :=
    match stitch with
    | none => knot
    | some s => s!"{knot}.{s}"
  asLine s!"[{place}]"

end BranchingStory
