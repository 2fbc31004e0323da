import BranchingStory.Play.Glue
import BranchingStory.Play.Render

/-
  This file follows a story from step to step, until it offers
  choices or comes to its end.

  Key definitions include:
    * `Prompt`
    * `Progress`
    * `divertPlace?`
    * `emit`
    * `assign`
    * `isAvailable`
    * `offersOf`
    * `takeBranch`
    * `arriveAt`
    * `step`
    * `follow`
    * `resume`
    * `choose`
-/

------------------------------------------------------------
-- Prompts
------------------------------------------------------------

namespace BranchingStory

/- What the player is asked: to choose, or nothing more. -/
inductive Prompt where
  | choices (offers : List Offer)
  | done
deriving DecidableEq, Repr

/- What a step yields: maybe a line, maybe a prompt. -/
structure Progress where
  line : Option RenderedLine
  prompt : Option Prompt
deriving Inhabited

/- A step that yields nothing. -/
def Progress.silent : Progress :=
  ⟨none, none⟩

/- What is asked for in a state, unless the story goes on. -/
def State.prompt?
    (s : State) : Option Prompt :=
  match s.status with
  | .finished => some .done
  | .presenting => some (.choices s.offers)
  | .ready => none

end BranchingStory

------------------------------------------------------------
-- Diverts
------------------------------------------------------------

namespace BranchingStory

/- Where a divert leads, or none for the end of the story. -/
def divertPlace?
    (d : Divert) : Play (Option Address) := do
  match d.destination with
  | some .finish => return none
  | some (.place a) => return some a
  | some (.throughVariable name) =>
      match (← get).memory.vars.lookup name with
      | some v => return some (.ofPath v.text)
      | none => throw (.evaluation (.unknownVariable name))
  | none =>
      throw (.evaluation (.unresolvedTarget d.target))

/- Come to the end of the story. -/
def finish : Play Prompt := do
  modify fun s =>
    { s with status := .finished, frames := [] }
  return .done

/- Go on at a place of the story. -/
def goTo
    (a : Address) : Play Unit :=
  modify fun s => { s with location := a, frames := [] }

/- Follow the divert that ended a line, if there is one. -/
def followDivert : Option Divert → Play (Option Prompt)
  | none => return none
  | some d => do
      match ← divertPlace? d with
      | none => return some (← finish)
      | some a => do
          goTo a
          return none

end BranchingStory

------------------------------------------------------------
-- Lines And Assignments
------------------------------------------------------------

namespace BranchingStory

/- Render a line and follow the divert that it ends with. -/
def emit
    (l : ContentLine) : Play Progress := do
  let (text, d) ← render l.fragments
  let gap := if d.isSome && !endsWithSpace text then " " else ""
  let line : RenderedLine :=
    { text := text ++ gap
      glueBegin := l.glueBegin
      glueEnd := l.glueEnd || d.isSome
      tags := l.tags }
  let prompt ← followDivert d
  return ⟨some line, prompt⟩

/- Assign a value to a variable of the same kind. -/
def assign
    (o : Outline)
    (name : String)
    (e : Expr) : Play Unit := do
  let v ← evaluate e
  match o.vars.lookup name with
  | none => throw (.unknownVariable name)
  | some d =>
      if v.kind = d.initial.kind then
        modify (State.setVariable name v)
      else
        throw (.typeMismatch name d.initial.kind v.kind.name)

end BranchingStory

------------------------------------------------------------
-- Choices
------------------------------------------------------------

namespace BranchingStory

/- Whether all conditions hold, tested one after the other. -/
def allHold : List Expr → Play Bool
  | [] => return true
  | e :: es => do
      if ← test e then allHold es else return false

/-
  Whether a branch can be taken: it is sticky or has not been
  taken, and its conditions hold.
-/
def isAvailable
    (b : Branch) : Play Bool := do
  let s ← get
  if !b.choice.sticky && 0 < s.timesChosen b.id then
    return false
  else allHold b.choice.conditions

/- The offers of the branches that can be taken. -/
def offersOf : List Branch → Play (List Offer)
  | [] => return []
  | b :: bs => do
      if b.choice.fallback then offersOf bs
      else if ← isAvailable b then
        let (text, _) ← render b.choice.display.fragments
        let rest ← offersOf bs
        return ⟨b.id, trimString text, b.choice.display.tags⟩
          :: rest
      else offersOf bs

/- The first fallback that can be taken. -/
def findFallback? : List Branch → Play (Option Branch)
  | [] => return none
  | b :: bs => do
      if b.choice.fallback then
        if ← isAvailable b then return some b
        else findFallback? bs
      else findFallback? bs

/-
  Go into a branch.  The enclosing block goes on after its set
  of choices later.
-/
def takeBranch
    (branch : Nat) : Play Unit := do
  modify (State.countChosen branch)
  let s ← get
  match s.frames with
  | [] => throw .indexOutOfRange
  | f :: fs =>
      set { s with
        frames :=
          ⟨branch, 0⟩ :: { f with index := f.index + 1 } :: fs }

/-
  Arrive at a set of choices: offer what can be taken, or take
  the fallback if there is nothing to offer.
-/
def arriveAt
    (line : Nat)
    (branches : List Branch) : Play Progress := do
  match ← offersOf branches with
  | offer :: offers => do
      modify fun s =>
        { s with
          offers := offer :: offers
          status := .presenting }
      return ⟨none, some (.choices (offer :: offers))⟩
  | [] => do
      match ← findFallback? branches with
      | some b => do
          takeBranch b.id
          return .silent
      | none =>
          throw (.outOfChoices (← get).location line)

end BranchingStory

------------------------------------------------------------
-- Steps
------------------------------------------------------------

namespace BranchingStory

/- Enter the stitch at the current location. -/
def enter
    (o : Outline) : Play Progress := do
  let s ← get
  match o.stitch? s.location with
  | none => throw .indexOutOfRange
  | some stitch => do
      set { s.countVisit s.location with
        frames := [⟨stitch.body.id, 0⟩] }
      return .silent

/- Leave a block that has come to its end. -/
def leave
    (outer : List Frame) : Play Progress := do
  match outer with
  | [] => return ⟨none, some (← finish)⟩
  | f :: fs => do
      modify fun s => { s with frames := f :: fs }
      return .silent

/- Execute a part of the content. -/
def execute
    (o : Outline)
    (i : Item) : Play Progress :=
  match i with
  | .line _ content => emit content
  | .gather _ _ (some content) => emit content
  | .gather _ _ none => return .silent
  | .assign _ name value _ => do
      assign o name value
      return .silent
  | .choices _ _ line branches => arriveAt line branches

/- Whether a part of the content is a set of choices. -/
def Item.isChoices : Item → Bool
  | .choices _ _ _ _ => true
  | _ => false

/-
  Make a step: enter the stitch, leave a block at its end, or
  execute what comes next.  A set of choices stays next until
  a branch is taken.
-/
def step
    (o : Outline) : Play Progress := do
  match (← get).frames with
  | [] => enter o
  | f :: fs =>
      match o.block? f.block with
      | none => throw .indexOutOfRange
      | some items =>
          if items.length ≤ f.index then leave fs
          else do
            let i ← itemAt items f.index
            if !i.isChoices then
              modify fun s =>
                { s with
                  frames :=
                    { f with index := f.index + 1 } :: fs }
            execute o i

/-
  Make steps until there is a prompt, at most as many as
  given, and collect the lines.
-/
def follow
    (o : Outline) :
    Nat → Play (List RenderedLine × Prompt)
  | 0 => throw .stepsExhausted
  | n + 1 => do
      let p ← step o
      match p.prompt with
      | some prompt => return (p.line.toList, prompt)
      | none => do
          let (ls, prompt) ← follow o n
          return (p.line.toList ++ ls, prompt)

end BranchingStory

------------------------------------------------------------
-- Resuming And Choosing
------------------------------------------------------------

namespace BranchingStory

/-
  Go on with the story up to the next prompt, in at most as
  many steps as given.
-/
def resume
    (o : Outline)
    (steps : Nat) : Play (List OutputLine × Prompt) := do
  match (← get).status with
  | .finished => throw .finished
  | .presenting => throw .choicePending
  | .ready => do
      let (ls, prompt) ← follow o steps
      return (joinLines ls, prompt)

/- Choose one of the offers by its place among them. -/
def choose
    (index : Int) : Play Unit := do
  let s ← get
  if s.status ≠ .presenting ∨ s.offers.isEmpty then
    throw .nothingToChoose
  else if index < 0 then
    throw (.invalidChoice index s.offers.length)
  else
    match s.offers[index.toNat]? with
    | none => throw (.invalidChoice index s.offers.length)
    | some offer => do
        set { s with offers := [] }
        takeBranch offer.branch
        modify fun s => { s with status := .ready }

end BranchingStory
