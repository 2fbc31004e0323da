import BranchingStory.Outline.Basic

/-
  This file gives names and divert targets their meaning.  A
  name in an expression is a variable if one is declared under
  it, and else the place that it leads to.

  Key definitions include:
    * `Outline.meaning?`
    * `Outline.destination?`
    * `Expr.resolve`
    * `Fragment.resolve`
    * `ContentLine.resolve`
    * `Choice.resolve`
    * `Item.resolve`
    * `Declaration.resolve`
    * `Outline.resolve`
-/

------------------------------------------------------------
-- Meanings
------------------------------------------------------------

namespace BranchingStory

namespace Outline

/- What a name means in an expression within a knot. -/
def meaning?
    (o : Outline)
    (knot name : String) : Option Meaning :=
  if o.vars.contains name then some .variable
  else (o.findPlace? knot name).map .visits

/- Whether a variable of a given name holds a place. -/
def holdsPlace
    (o : Outline)
    (name : String) : Bool :=
  match o.vars.lookup name with
  | some d => d.initial.kind = .divert
  | none => false

/- Where a divert within a knot leads. -/
def destination?
    (o : Outline)
    (knot target : String) : Option Destination :=
  if isFinishName target then some .finish
  else if o.holdsPlace target then
    some (.throughVariable target)
  else (o.findPlace? knot target).map .place

end Outline

end BranchingStory

------------------------------------------------------------
-- Content
------------------------------------------------------------

namespace BranchingStory

/- An expression with the meaning of its names. -/
def Expr.resolve
    (o : Outline)
    (knot : String) : Expr → Expr
  | .literal v => .literal v
  | .name s l _ => .name s l (o.meaning? knot s)
  | .target s l _ => .target s l (o.findPlace? knot s)
  | .unary op e => .unary op (resolve o knot e)
  | .binary op e f =>
      .binary op (resolve o knot e) (resolve o knot f)

namespace Fragment

mutual

/- A fragment with the destinations of its diverts. -/
def resolve
    (o : Outline)
    (knot : String) : Fragment → Fragment
  | .text s => .text s
  | .insertion e => .insertion (e.resolve o knot)
  | .conditional c t f =>
      .conditional (c.resolve o knot)
        (resolveAll o knot t) (resolveAll o knot f)
  | .alternative m items n =>
      .alternative m (resolveItems o knot items) n
  | .divert d =>
      .divert
        { d with destination := o.destination? knot d.target }

/- Fragments with the destinations of their diverts. -/
def resolveAll
    (o : Outline)
    (knot : String) : List Fragment → List Fragment
  | [] => []
  | f :: fs => resolve o knot f :: resolveAll o knot fs

/- The items of an alternative with their destinations. -/
def resolveItems
    (o : Outline)
    (knot : String) :
    List (List Fragment) → List (List Fragment)
  | [] => []
  | fs :: items =>
      resolveAll o knot fs :: resolveItems o knot items

end

end Fragment

/- A line of content whose parts are resolved. -/
def ContentLine.resolve
    (o : Outline)
    (knot : String)
    (l : ContentLine) : ContentLine :=
  { l with
    fragments := Fragment.resolveAll o knot l.fragments }

/- A choice whose lines and conditions are resolved. -/
def Choice.resolve
    (o : Outline)
    (knot : String)
    (c : Choice) : Choice :=
  { c with
    display := c.display.resolve o knot
    output := c.output.resolve o knot
    conditions := c.conditions.map (Expr.resolve o knot) }

mutual

/- A part of the content that is resolved throughout. -/
def Item.resolve
    (o : Outline)
    (knot : String) : Item → Item
  | .line id content => .line id (content.resolve o knot)
  | .gather id depth content =>
      .gather id depth
        (content.map (ContentLine.resolve o knot))
  | .assign id name value l =>
      .assign id name (value.resolve o knot) l
  | .choices id depth l branches =>
      .choices id depth l (resolveBranches o knot branches)

/- A branch that is resolved throughout. -/
def Branch.resolve
    (o : Outline)
    (knot : String) : Branch → Branch
  | .mk id outputId depth choice items =>
      .mk id outputId depth (choice.resolve o knot)
        (resolveItems o knot items)

/- Branches that are resolved throughout. -/
def resolveBranches
    (o : Outline)
    (knot : String) : List Branch → List Branch
  | [] => []
  | b :: bs =>
      Branch.resolve o knot b :: resolveBranches o knot bs

/- Content that is resolved throughout. -/
def resolveItems
    (o : Outline)
    (knot : String) : List Item → List Item
  | [] => []
  | i :: is =>
      Item.resolve o knot i :: resolveItems o knot is

end

end BranchingStory

------------------------------------------------------------
-- Outlines
------------------------------------------------------------

namespace BranchingStory

/- A declaration whose place is given by its full path. -/
def Declaration.resolve
    (o : Outline)
    (d : Declaration) : Declaration :=
  match d.initial with
  | .divert target =>
      match o.findPlace? "" target with
      | some a => { d with initial := .divert a.path }
      | none => d
  | _ => d

/- A stitch of a given knot that is resolved throughout. -/
def Stitch.resolve
    (o : Outline)
    (knot : String)
    (s : Stitch) : Stitch :=
  { s with
    body :=
      { s.body with
        items := resolveItems o knot s.body.items } }

/- A knot that is resolved throughout. -/
def Knot.resolve
    (o : Outline)
    (k : Knot) : Knot :=
  { k with
    stitches := k.stitches.mapValues (Stitch.resolve o k.name) }

/- An outline whose names and targets have their meaning. -/
def Outline.resolve
    (o : Outline) : Outline :=
  { o with
    knots := o.knots.mapValues (Knot.resolve o)
    vars :=
      o.vars.mapValues (Declaration.resolve o) }

end BranchingStory
