import BranchingStory.Expr.Eval
import BranchingStory.Outline.Basic
import BranchingStory.Random.Generator

/-
  This file defines the state of a story that is being played,
  and the faults that can stop it.

  Key definitions include:
    * `Status`
    * `Frame`
    * `Offer`
    * `State`
    * `State.start`
    * `PlayError`
    * `PlayError.message`
    * `Play`
    * `itemAt?`
    * `evaluate`
    * `textOf`
-/

------------------------------------------------------------
-- States
------------------------------------------------------------

namespace BranchingStory

/-
  Whether the story can go on, waits for a choice or has come
  to its end.
-/
inductive Status where
  | ready
  | presenting
  | finished
deriving DecidableEq, Repr, Inhabited

namespace Status

/- The written form of a status. -/
def text : Status → String
  | .ready => "awaiting_resume"
  | .presenting => "presenting"
  | .finished => "done"

/- The status of a given written form. -/
def ofText?
    (s : String) : Option Status :=
  [Status.ready, .presenting, .finished].find?
    fun t => t.text = s

end Status

/-
  A block that is being followed, and the place in it that
  comes next.
-/
structure Frame where
  block : Nat
  index : Int
deriving DecidableEq, Repr

/- A choice on offer: its branch, its text and its tags. -/
structure Offer where
  branch : Nat
  text : String
  tags : List String
deriving DecidableEq, Repr

/-
  Everything that changes while a story is played.  The frames
  lead from the innermost block out to the stitch; there are
  none before the stitch is entered.  Alternatives count how
  often they were shown, and shuffles keep their order.
-/
structure State where
  seed : Int
  generator : Generator
  location : Address
  memory : Memory
  status : Status
  frames : List Frame
  chosen : Table Int Int
  cursors : Table Int Int
  orders : Table Int (List Int)
  offers : List Offer

namespace State

/- The state at the start of a story. -/
def start
    (o : Outline)
    (seed : Int) : State :=
  { seed := seed
    generator := .ofSeed seed
    location := o.start
    memory :=
      { vars := o.vars.mapValues Declaration.initial
        visits := .empty }
    status := .ready
    frames := []
    chosen := .empty
    cursors := .empty
    orders := .empty
    offers := [] }

/- How often a branch has been taken. -/
def timesChosen
    (s : State)
    (branch : Nat) : Int :=
  (s.chosen.lookup branch).getD 0

/- Count a further time that a branch is taken. -/
def countChosen
    (branch : Nat)
    (s : State) : State :=
  { s with
    chosen :=
      s.chosen.insert branch (s.timesChosen branch + 1) }

/- Count a further visit to a place. -/
def countVisit
    (a : Address)
    (s : State) : State :=
  { s with
    memory :=
      { s.memory with
        visits :=
          s.memory.visits.insert a
            (s.memory.visitsTo a + 1) } }

/- Set a variable. -/
def setVariable
    (name : String)
    (v : Value)
    (s : State) : State :=
  { s with
    memory :=
      { s.memory with
        vars := s.memory.vars.insert name v } }

end State

end BranchingStory

------------------------------------------------------------
-- Faults
------------------------------------------------------------

namespace BranchingStory

/- The faults of playing a story. -/
inductive PlayError where
  | evaluation (fault : EvalError)
  | outOfChoices (location : Address) (line : Nat)
  | finished
  | choicePending
  | nothingToChoose
  | invalidChoice (index : Int) (offered : Nat)
  | unknownKnot (knot : String)
  | unknownStitch (stitch knot : String)
  | unknownTarget (target : String)
  | unknownVariable (name : String)
  | constant (name : String)
  | typeMismatch (name : String) (declared : Kind)
      (got : String)
  | indexOutOfRange
  | longInt
  | stepsExhausted
deriving DecidableEq, Repr

/- The wording of a fault. -/
def PlayError.message : PlayError → String
  | .evaluation fault => fault.message
  | .outOfChoices a line =>
      s!"ran out of choices at {a.path} (line {line}): " ++
        "every choice is spent or filtered and there is " ++
        "no fallback"
  | .finished =>
      "The story has finished; use move_to to continue " ++
        "elsewhere."
  | .choicePending =>
      "A choice must be made before resuming."
  | .nothingToChoose => "No choices are being presented."
  | .invalidChoice i n =>
      s!"choice index {i} is out of range: {n} choice(s) " ++
        "presented"
  | .unknownKnot k => s!"Knot '{k}' does not exist."
  | .unknownStitch s k =>
      s!"Stitch '{s}' does not exist in knot '{k}'."
  | .unknownTarget t =>
      s!"Divert target '{t}' does not exist."
  | .unknownVariable n => s!"Variable '{n}' is not declared."
  | .constant n =>
      s!"'{n}' is a constant and cannot be changed."
  | .typeMismatch n k got =>
      s!"variable '{n}' holds {k.name} values, got {got}"
  | .indexOutOfRange => "list index out of range"
  | .longInt => longIntMessage
  | .stepsExhausted => "the story does not come to a halt"

end BranchingStory

------------------------------------------------------------
-- Actions
------------------------------------------------------------

namespace BranchingStory

/-
  An action on the state of a story.  A fault does not undo
  what has been done before it.
-/
abbrev Play :=
  ExceptT PlayError (StateM State)

namespace Play

/- The outcome of an action, and the state after it. -/
def runFrom
    {α : Type}
    (s : State)
    (p : Play α) : Except PlayError α × State :=
  p.run s

end Play

/-
  The item at a place of a list.  Negative places count from
  the end.
-/
def itemAt?
    {α : Type}
    (xs : List α)
    (i : Int) : Option α :=
  if 0 ≤ i then xs[i.toNat]?
  else if -i ≤ xs.length then
    xs[(xs.length + i).toNat]?
  else none

/- The item at a place, or a fault where there is none. -/
def itemAt
    {α : Type}
    (xs : List α)
    (i : Int) : Play α :=
  match itemAt? xs i with
  | some x => return x
  | none => throw .indexOutOfRange

/- The value of an expression in the current state. -/
def evaluate
    (e : Expr) : Play Value := do
  match e.eval (← get).memory with
  | .ok v => return v
  | .error fault => throw (.evaluation fault)

/- The text of a value, unless it is too long to be written. -/
def textOf
    (v : Value) : Play String :=
  if v.isWritable then return v.text
  else throw .longInt

/- Whether an expression holds in the current state. -/
def test
    (e : Expr) : Play Bool := do
  return (← evaluate e).truthy

end BranchingStory
