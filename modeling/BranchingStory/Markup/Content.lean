import BranchingStory.Expr.Basic

/-
  This file defines the content of the lines of a story: text
  that is mixed with insertions, conditional text,
  alternatives and diverts.

  Key definitions include:
    * `Mode`
    * `Destination`
    * `Divert`
    * `Fragment`
    * `Fragment.walk`
    * `Fragment.walkAll`
    * `ContentLine`
    * `ContentLine.isBlank`
    * `Choice`
-/

------------------------------------------------------------
-- Fragments
------------------------------------------------------------

namespace BranchingStory

/-
  The order in which an alternative shows its items: one after
  the other staying at the last, in a circle, one after the
  other and then nothing, or in a shuffled order.
-/
inductive Mode where
  | sequence
  | cycle
  | once
  | shuffle
deriving DecidableEq, Repr

/-
  Where a divert leads: to the end of the story, to the place
  that a variable holds, or to a fixed place.
-/
inductive Destination where
  | finish
  | throughVariable (name : String)
  | place (a : Address)
deriving DecidableEq, Repr

/-
  A divert: the target as it is written, and its line.  The
  destination is known once the whole story has been read.
-/
structure Divert where
  target : String
  line : Nat
  destination : Option Destination
deriving DecidableEq, Repr, Inhabited

/-
  A piece of content.  Every alternative has a number of its
  own within the story.
-/
inductive Fragment where
  | text (s : String)
  | insertion (e : Expr)
  | conditional (condition : Expr)
      (whenTrue whenFalse : List Fragment)
  | alternative (mode : Mode)
      (items : List (List Fragment)) (number : Nat)
  | divert (d : Divert)
deriving Repr, Inhabited

/- A fragment that is text without anything but blanks. -/
def Fragment.isBlankText : Fragment → Bool
  | .text s => BranchingStory.isBlankText s.toList
  | _ => false

end BranchingStory

------------------------------------------------------------
-- Walking Through Fragments
------------------------------------------------------------

namespace BranchingStory

namespace Fragment

mutual

/-
  A fragment and everything in it, each before its parts and
  the parts in the order of the script.
-/
def walk : Fragment → List Fragment
  | .conditional c t f =>
      .conditional c t f :: (walkAll t ++ walkAll f)
  | .alternative m items n =>
      .alternative m items n :: walkItems items
  | f => [f]

/- Everything in a list of fragments. -/
def walkAll : List Fragment → List Fragment
  | [] => []
  | f :: fs => walk f ++ walkAll fs

/- Everything in the items of an alternative. -/
def walkItems : List (List Fragment) → List Fragment
  | [] => []
  | fs :: items => walkAll fs ++ walkItems items

end

end Fragment

end BranchingStory

------------------------------------------------------------
-- Lines And Choices
------------------------------------------------------------

namespace BranchingStory

/-
  A line of content.  Glue at its beginning or end joins it to
  the line before or after it.
-/
structure ContentLine where
  fragments : List Fragment
  line : Nat
  glueBegin : Bool
  glueEnd : Bool
  tags : List String
deriving Repr, Inhabited

namespace ContentLine

/- Whether a line holds nothing but blank text. -/
def isBlank
    (l : ContentLine) : Bool :=
  l.fragments.all Fragment.isBlankText

/- Put tags in front of those of a line. -/
def withTags
    (tags : List String)
    (l : ContentLine) : ContentLine :=
  { l with tags := tags ++ l.tags }

end ContentLine

/-
  A choice.  The display line is what the player chooses from,
  and the output line is what the story goes on with.  A
  choice that is not sticky can be taken once.  A fallback is
  never shown: it is taken when nothing else is left.
-/
structure Choice where
  display : ContentLine
  output : ContentLine
  line : Nat
  conditions : List Expr
  sticky : Bool
  fallback : Bool
deriving Repr, Inhabited

/- Put tags in front of those of both lines of a choice. -/
def Choice.withTags
    (tags : List String)
    (c : Choice) : Choice :=
  { c with
    display := c.display.withTags tags
    output := c.output.withTags tags }

end BranchingStory
