import BranchingStory.Markup.Content
import BranchingStory.Table

/-
  This file defines the outline of a story: its variables and
  its knots, each with its stitches and their content.  The
  content of a stitch is a tree, as a branch of a choice holds
  content of its own.

  Every part of the content has a number.  The parts are
  numbered in the order in which they come into being while
  the script is read, so that numbers outlive a saved game.

  Key definitions include:
    * `Item`
    * `Branch`
    * `Branch.body`
    * `Body`
    * `Stitch`
    * `Knot`
    * `Knot.defaultStitch?`
    * `Declaration`
    * `Outline`
    * `Outline.block?`
    * `Outline.stitch?`
    * `Outline.findPlace?`
-/

------------------------------------------------------------
-- Content
------------------------------------------------------------

namespace BranchingStory

mutual

/-
  A part of the content of a stitch or a branch: a line, a
  gather with or without a line of its own, an assignment or a
  set of choices.
-/
inductive Item where
  | line (id : Nat) (content : ContentLine)
  | gather (id depth : Nat) (content : Option ContentLine)
  | assign (id : Nat) (name : String) (value : Expr)
      (line : Nat)
  | choices (id depth line : Nat) (branches : List Branch)

/-
  A choice and what follows it.  The output line of the choice
  has a number of its own.
-/
inductive Branch where
  | mk (id outputId depth : Nat) (choice : Choice)
      (items : List Item)

end

/- The number of a part of the content. -/
def Item.id : Item → Nat
  | .line id _ => id
  | .gather id _ _ => id
  | .assign id _ _ _ => id
  | .choices id _ _ _ => id

namespace Branch

/- The number of a branch. -/
def id : Branch → Nat
  | mk id _ _ _ _ => id

/- The number of the output line of a branch. -/
def outputId : Branch → Nat
  | mk _ outputId _ _ _ => outputId

/- How deep a branch is nested. -/
def depth : Branch → Nat
  | mk _ _ depth _ _ => depth

/- The choice that leads into a branch. -/
def choice : Branch → Choice
  | mk _ _ _ choice _ => choice

/- What follows the output line of a branch. -/
def items : Branch → List Item
  | mk _ _ _ _ items => items

/-
  What the story goes on with in a branch, the output line of
  its choice first.
-/
def body
    (b : Branch) : List Item :=
  .line b.outputId b.choice.output :: b.items

end Branch

end BranchingStory

------------------------------------------------------------
-- Looking Up Branches
------------------------------------------------------------

namespace BranchingStory

mutual

/- The branch of a given number in a part of the content. -/
def Item.branch?
    (id : Nat) : Item → Option Branch
  | .choices _ _ _ branches => branchAmong? id branches
  | _ => none

/- The branch of a given number within a branch. -/
def Branch.branch?
    (id : Nat) : Branch → Option Branch
  | .mk id' outputId depth choice items =>
      if id' = id then
        some (.mk id' outputId depth choice items)
      else branchIn? id items

/- The branch of a given number among branches. -/
def branchAmong?
    (id : Nat) : List Branch → Option Branch
  | [] => none
  | b :: bs =>
      match Branch.branch? id b with
      | some found => some found
      | none => branchAmong? id bs

/- The branch of a given number in a list of content. -/
def branchIn?
    (id : Nat) : List Item → Option Branch
  | [] => none
  | i :: is =>
      match Item.branch? id i with
      | some found => some found
      | none => branchIn? id is

end

end BranchingStory

------------------------------------------------------------
-- Knots And Stitches
------------------------------------------------------------

namespace BranchingStory

/- The content of a stitch, and its number. -/
structure Body where
  id : Nat
  items : List Item

/- A stitch: its name, the line it begins on, its content. -/
structure Stitch where
  name : String
  line : Nat
  body : Body

/- A knot: its name, its line, its stitches and its tags. -/
structure Knot where
  name : String
  line : Nat
  stitches : Table String Stitch
  tags : List String

/-
  The stitch that a knot begins with: its root stitch if it
  has one, and else its first.
-/
def Knot.defaultStitch?
    (k : Knot) : Option String :=
  if k.stitches.contains rootName then some rootName
  else k.stitches.keys.head?

/- The declaration of a variable or a constant. -/
structure Declaration where
  name : String
  initial : Value
  line : Nat
  constant : Bool
deriving DecidableEq, Repr

end BranchingStory

------------------------------------------------------------
-- Outlines
------------------------------------------------------------

namespace BranchingStory

/-
  The outline of a story.  Content under a header that repeats
  a name belongs to no knot; it is kept apart.  The size is
  the count of numbered parts.
-/
structure Outline where
  knots : Table String Knot
  start : Address
  vars : Table String Declaration
  tags : List String
  detached : List Body
  size : Nat

namespace Outline

/- The stitch at an address. -/
def stitch?
    (o : Outline)
    (a : Address) : Option Stitch := do
  let k ← o.knots.lookup a.knot
  k.stitches.lookup a.stitch

/- Whether there is a stitch at an address. -/
def hasAddress
    (o : Outline)
    (a : Address) : Bool :=
  (o.stitch? a).isSome

/- All stitches, knot by knot. -/
def stitches
    (o : Outline) : List Stitch :=
  o.knots.values.flatMap fun k => k.stitches.values

/- The contents of all stitches and what is kept apart. -/
def bodies
    (o : Outline) : List Body :=
  (o.stitches.map Stitch.body) ++ o.detached

/- The branch of a given number. -/
def branch?
    (o : Outline)
    (id : Nat) : Option Branch :=
  o.bodies.findSome? fun b => branchIn? id b.items

/-
  The content that a number stands for: that of a stitch or of
  a branch.
-/
def block?
    (o : Outline)
    (id : Nat) : Option (List Item) :=
  match o.bodies.find? fun b => b.id = id with
  | some b => some b.items
  | none => (o.branch? id).map Branch.body

/-
  The place that a written target leads to from within a knot.
  A name after a point is a stitch of the knot before it.  A
  name alone is a stitch of the knot at hand, and if that has
  none, the beginning of the knot of this name.
-/
def findPlace?
    (o : Outline)
    (current target : String) : Option Address :=
  let (knot, stitch) := breakAt '.' target.toList
  let own :=
    match o.knots.lookup current with
    | some k => k.stitches.contains target
    | none => false
  match stitch with
  | some (c :: rest) =>
      let a : Address :=
        ⟨String.ofList knot, String.ofList (c :: rest)⟩
      if o.hasAddress a then some a else none
  | _ =>
      if own then some ⟨current, target⟩
      else do
        let k ← o.knots.lookup target
        let s ← k.defaultStitch?
        return ⟨target, s⟩

end Outline

end BranchingStory
