import BranchingStory.Markup.Reading
import BranchingStory.Story.Resolve

/-
  This file checks an outline: every name and target must have
  a meaning, every operation must fit the kinds of its
  operands, and every assignment the kind of its variable.
  All faults are reported; none ends the check.

  Key definitions include:
    * `Expr.checkKind`
    * `Fragment.check`
    * `ContentLine.check`
    * `checkChoices`
    * `Outline.check`
-/

------------------------------------------------------------
-- Kinds Of Expressions
------------------------------------------------------------

namespace BranchingStory

/- The kind of the result of an operation, if it fits. -/
def BinaryOp.resultKind?
    (op : BinaryOp)
    (left right : Kind) : Option Kind :=
  let numeric := left.isNumeric && right.isNumeric
  if op.isLogical then
    if left.isTestable && right.isTestable then some .bool
    else none
  else if op.isEquality then
    if numeric || left = right then some .bool else none
  else if op.isOrdering then
    if numeric then some .bool else none
  else if op = .add ∧ left = .string ∧ right = .string then
    some .string
  else if numeric then
    if left = .float ∨ right = .float then some .float
    else some .int
  else none

/- Report a target that leads nowhere. -/
def reportUnknownAddress
    (target : String)
    (line : Nat) : Reading Unit :=
  Reading.report (.unknownAddress target) line

/- Report values and operations that do not fit. -/
def reportTypeFault
    (fault : TypeFault)
    (line : Nat) : Reading Unit :=
  Reading.report (.typeMismatch fault) line

namespace Expr

/- The kind of what a name stands for. -/
def checkName
    (o : Outline)
    (knot name : String)
    (line : Nat) : Reading (Option Kind) :=
  match o.vars.lookup name with
  | some d => return some d.initial.kind
  | none =>
      match o.findPlace? knot name with
      | some _ => return some .int
      | none => do
          Reading.report (.unknownName name) line
          return none

/-
  The kind of the values of an expression within a knot, or
  none if a fault has been reported.  Faults of kind are
  reported on the given line.
-/
def checkKind
    (o : Outline)
    (knot : String)
    (line : Nat) : Expr → Reading (Option Kind)
  | .literal v => return some v.kind
  | .name s l _ => checkName o knot s l
  | .target s l _ =>
      match o.findPlace? knot s with
      | some _ => return some .divert
      | none => do
          reportUnknownAddress s l
          return none
  | .unary op e => do
      match op, ← checkKind o knot line e with
      | _, none => return none
      | .not, some k =>
          if k.isTestable then return some .bool
          else
            reportTypeFault (.notOperand k) line
            return none
      | .negate, some k =>
          if k.isNumeric then return some k
          else
            reportTypeFault (.negated k) line
            return none
  | .binary op e f => do
      let left ← checkKind o knot line e
      let right ← checkKind o knot line f
      match left, right with
      | some l, some r =>
          match op.resultKind? l r with
          | some k => return some k
          | none => do
              reportTypeFault (.operands op l r) line
              return none
      | _, _ => return none

/- Check an expression that is to be tested. -/
def checkCondition
    (o : Outline)
    (knot : String)
    (line : Nat)
    (e : Expr) : Reading Unit := do
  match ← e.checkKind o knot line with
  | none => return ()
  | some k =>
      if k.isTestable then return ()
      else reportTypeFault (.condition k) line

end Expr

end BranchingStory

------------------------------------------------------------
-- Lines
------------------------------------------------------------

namespace BranchingStory

/- Check a fragment by itself, without its parts. -/
def Fragment.check
    (o : Outline)
    (knot : String)
    (line : Nat) : Fragment → Reading Unit
  | .text _ => return ()
  | .insertion e => do
      let _ ← e.checkKind o knot line
      return ()
  | .conditional c _ _ => c.checkCondition o knot line
  | .alternative _ _ _ => return ()
  | .divert d =>
      if (o.destination? knot d.target).isSome then return ()
      else reportUnknownAddress d.target d.line

/- Check all fragments of a line, at any depth. -/
def ContentLine.check
    (o : Outline)
    (knot : String)
    (l : ContentLine) : Reading Unit :=
  (Fragment.walkAll l.fragments).forM
    (Fragment.check o knot l.line)

end BranchingStory

------------------------------------------------------------
-- Choices And Assignments
------------------------------------------------------------

namespace BranchingStory

/- Check the number of fallbacks of a set of choices. -/
def checkFallbackCount : List Choice → Reading Unit
  | _ :: second :: _ =>
      Reading.report .multipleFallbacks second.line
  | _ => return ()

/- Warn of a fallback that can be taken only once. -/
def checkFallback
    (c : Choice) : Reading Unit :=
  if c.sticky then return ()
  else Reading.report .fragileFallback c.line

/- Check the conditions and the display line of a choice. -/
def Choice.check
    (o : Outline)
    (knot : String)
    (c : Choice) : Reading Unit := do
  c.conditions.forM (Expr.checkCondition o knot c.line)
  c.display.check o knot

/- Check a set of choices, without what follows them. -/
def checkChoices
    (o : Outline)
    (knot : String)
    (branches : List Branch) : Reading Unit := do
  let choices := branches.map Branch.choice
  let fallbacks := choices.filter Choice.fallback
  checkFallbackCount fallbacks
  fallbacks.forM checkFallback
  choices.forM (Choice.check o knot)

/- Check an assignment. -/
def checkAssignment
    (o : Outline)
    (knot name : String)
    (value : Expr)
    (line : Nat) : Reading Unit :=
  match o.vars.lookup name with
  | none => Reading.report (.unknownVariable name) line
  | some d => do
      if d.constant then
        Reading.report (.assignToConstant name) line
      match ← value.checkKind o knot line with
      | none => return ()
      | some k =>
          if k = d.initial.kind then return ()
          else
            reportTypeFault
              (.assigned name d.initial.kind k) line

end BranchingStory

------------------------------------------------------------
-- Content
------------------------------------------------------------

namespace BranchingStory

/- Check a part of the content, without its branches. -/
def Item.check
    (o : Outline)
    (knot : String) : Item → Reading Unit
  | .line _ content => content.check o knot
  | .gather _ _ none => return ()
  | .gather _ _ (some content) => content.check o knot
  | .assign _ name value l =>
      checkAssignment o knot name value l
  | .choices _ _ _ branches => checkChoices o knot branches

mutual

/- Check the branches of a part of the content. -/
def Item.checkBranches
    (o : Outline)
    (knot : String) : Item → Reading Unit
  | .choices _ _ _ branches =>
      checkBranchList o knot branches
  | _ => return ()

/- Check the content of a branch, the output line first. -/
def Branch.check
    (o : Outline)
    (knot : String) : Branch → Reading Unit
  | .mk _ _ _ choice items => do
      choice.output.check o knot
      items.forM (Item.check o knot)
      checkInnerBranches o knot items

/- Check branches, the last one first. -/
def checkBranchList
    (o : Outline)
    (knot : String) : List Branch → Reading Unit
  | [] => return ()
  | b :: bs => do
      checkBranchList o knot bs
      Branch.check o knot b

/- Check the branches in a content, the last ones first. -/
def checkInnerBranches
    (o : Outline)
    (knot : String) : List Item → Reading Unit
  | [] => return ()
  | i :: is => do
      checkInnerBranches o knot is
      Item.checkBranches o knot i

end

/- Check a stitch of a given knot. -/
def Stitch.check
    (o : Outline)
    (knot : String)
    (s : Stitch) : Reading Unit := do
  s.body.items.forM (Item.check o knot)
  checkInnerBranches o knot s.body.items

end BranchingStory

------------------------------------------------------------
-- Outlines
------------------------------------------------------------

namespace BranchingStory

/- Check a declaration. -/
def Declaration.check
    (o : Outline)
    (d : Declaration) : Reading Unit := do
  if o.knots.contains d.name then
    Reading.report (.nameShadowsKnot d.name) d.line
  match d.initial with
  | .divert target =>
      if (o.findPlace? "" target).isSome then return ()
      else reportUnknownAddress target d.line
  | _ => return ()

/- Check the stitches of a knot. -/
def Knot.check
    (o : Outline)
    (k : Knot) : Reading Unit :=
  k.stitches.values.forM (Stitch.check o k.name)

/- Check the declarations and then every knot. -/
def Outline.check
    (o : Outline) : Reading Unit := do
  o.vars.values.forM (Declaration.check o)
  o.knots.values.forM (Knot.check o)

end BranchingStory
