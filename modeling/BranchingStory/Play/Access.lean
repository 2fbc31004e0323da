import BranchingStory.Play.State

/-
  This file gives access to a story from outside: to its
  location, its visits, its tags and its variables.

  Key definitions include:
    * `findLocation`
    * `moveTo`
    * `visitsOf`
    * `knotTags`
    * `getVariable`
    * `Given`
    * `setVariable`
-/

------------------------------------------------------------
-- Locations
------------------------------------------------------------

namespace BranchingStory

/- The address of a knot, or of one of its stitches. -/
def findLocation
    (o : Outline)
    (knot : String)
    (stitch : Option String) : Except PlayError Address :=
  match o.knots.lookup knot with
  | none => .error (.unknownKnot knot)
  | some k =>
      match stitch with
      | none => .ok ⟨knot, k.defaultStitch?.getD rootName⟩
      | some s =>
          if k.stitches.contains s then .ok ⟨knot, s⟩
          else .error (.unknownStitch s knot)

/-
  Move to a place.  Its visit is counted once the story goes
  on from there.
-/
def moveTo
    (o : Outline)
    (knot : String)
    (stitch : Option String) : Play Unit := do
  match findLocation o knot stitch with
  | .error fault => throw fault
  | .ok a =>
      modify fun s =>
        { s with
          location := a
          frames := []
          offers := []
          status := .ready }

/- How often a place has been visited. -/
def visitsOf
    (o : Outline)
    (s : State)
    (knot : String)
    (stitch : Option String) : Except PlayError Int :=
  (findLocation o knot stitch).map s.memory.visitsTo

/- The tags of a knot. -/
def knotTags
    (o : Outline)
    (knot : String) : Except PlayError (List String) :=
  match o.knots.lookup knot with
  | none => .error (.unknownKnot knot)
  | some k => .ok k.tags

/- The current knot, and the stitch unless it is the root. -/
def State.place
    (s : State) : String × Option String :=
  (s.location.knot,
    if s.location.isRoot then none
    else some s.location.stitch)

end BranchingStory

------------------------------------------------------------
-- Variables
------------------------------------------------------------

namespace BranchingStory

/- The value of a variable. -/
def getVariable
    (s : State)
    (name : String) : Except PlayError Value :=
  match s.memory.vars.lookup name with
  | some v => .ok v
  | none => .error (.unknownVariable name)

/-
  What a variable can be set to from outside: nothing, a list,
  a plain value, or the value of another variable.
-/
inductive Given where
  | nothing
  | list
  | plain (v : Value)
  | variable (v : Value)
deriving DecidableEq, Repr

namespace Given

/- The name of the type of what is given. -/
def typeName : Given → String
  | .nothing => "NoneType"
  | .list => "list"
  | .plain (.string _) => "str"
  | .plain v => v.kind.name
  | .variable v => v.kind.name

/- The value of what is given, if it is one. -/
def value? : Given → Option Value
  | .plain v => some v
  | .variable v => some v
  | _ => none

/- The written target of what is given, if it is one. -/
def target? : Given → Option String
  | .plain (.string s) => some s
  | .variable (.divert s) => some s
  | _ => none

end Given

/- A target without the arrow that may lead it. -/
def dropArrow
    (s : String) : String :=
  let cs := s.toList
  String.ofList (trim ((stripStart? ['-', '>'] cs).getD cs))

/- The value that a variable of a given kind is set to. -/
def admitValue
    (o : Outline)
    (name : String)
    (declared : Kind)
    (given : Given) : Except PlayError Value :=
  if declared = .divert then
    match given.target? with
    | none =>
        .error (.typeMismatch name declared given.typeName)
    | some s =>
        let target := dropArrow s
        match o.findPlace? "" target with
        | some a => .ok (.divert a.path)
        | none => .error (.unknownTarget target)
  else
    match given.value? with
    | none =>
        .error (.typeMismatch name declared given.typeName)
    | some v =>
        if v.kind = declared then .ok v
        else
          .error (.typeMismatch name declared v.kind.name)

/- Set a variable that is no constant. -/
def setVariable
    (o : Outline)
    (name : String)
    (given : Given) : Play Unit := do
  match o.vars.lookup name with
  | none => throw (.unknownVariable name)
  | some d =>
      if d.constant then throw (.constant name)
      else
        match admitValue o name d.initial.kind given with
        | .error fault => throw fault
        | .ok v => modify (State.setVariable name v)

end BranchingStory
