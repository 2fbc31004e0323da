import BranchingStory.Markup.Fragments

/-
  This file reads the bodies of lines: text, choices,
  declarations and assignments.

  Key definitions include:
    * `splitTags`
    * `readLine`
    * `splitBrackets`
    * `readConditions`
    * `readChoice`
    * `readDeclaration`
    * `readAssignment`
-/

------------------------------------------------------------
-- Tags And Glue
------------------------------------------------------------

namespace BranchingStory

/- A line without the tags that end it, and the tags. -/
def splitTags
    (cs : List Char) : List Char × List String :=
  match (topLevel cs).split '#' with
  | [] => (cs, [])
  | content :: tags =>
      (content,
        ((tags.map trim).filter fun t => !t.isEmpty).map
          String.ofList)

/- The two characters of glue. -/
def glueMark : List Char :=
  ['<', '>']

/- Whether a line begins with glue, blanks aside. -/
def beginsWithGlue
    (cs : List Char) : Bool :=
  glueMark.isPrefixOf (trim cs)

/- Whether a line ends with glue, blanks aside. -/
def endsWithGlue
    (cs : List Char) : Bool :=
  glueMark.isSuffixOf (trim cs)

end BranchingStory

------------------------------------------------------------
-- Lines Of Text
------------------------------------------------------------

namespace BranchingStory

/- Whether a divert has a target. -/
def hasTarget : Option (List Char) → Bool
  | some (_ :: _) => true
  | _ => false

/-
  A line of content from its text and its divert.  A divert
  adds a blank to the text and glues the line to what follows.
-/
def readGlued
    (line : Nat)
    (cs : List Char)
    (target : Option (List Char))
    (tags : List String) : Reading ContentLine := do
  let gap := if hasTarget target then [' '] else []
  let fs ← readFragments line (dropGlue cs ++ gap)
  return {
    fragments := fs ++ divertTo line target
    line := line
    glueBegin := beginsWithGlue cs
    glueEnd := hasTarget target || endsWithGlue cs
    tags := tags }

/- The body of a line of text, a divert or a gather. -/
def readLine
    (line : Nat)
    (body : List Char) : Reading ContentLine := do
  let (content, tags) := splitTags body
  let (content, target) ← readDivert line content
  if target = some [] then
    Reading.report .missingTarget line
  readGlued line content target tags

end BranchingStory

------------------------------------------------------------
-- Choices
------------------------------------------------------------

namespace BranchingStory

/-
  The conditions that a choice begins with, and what follows
  them.  A condition that cannot be read is left out; without
  its closing brace it takes the rest of the choice with it.
-/
def readConditionsWithin
    (line : Nat) :
    Nat → List Char → Reading (List Expr × List Char)
  | 0, cs => return ([], cs)
  | n + 1, cs =>
      match trimStart cs with
      | '{' :: rest =>
          match takeBraced? 0 false rest with
          | none => do
              Reading.report .unclosedCondition line
              return ([], [])
          | some (inner, rest') => do
              let e ← readExpr? line inner
              let (es, rest'') ←
                readConditionsWithin line n rest'
              return (e.toList ++ es, rest'')
      | cs' => return ([], cs')

/- The leading conditions of a choice, and what follows. -/
def readConditions
    (line : Nat)
    (cs : List Char) : Reading (List Expr × List Char) :=
  readConditionsWithin line (cs.length + 1) cs

/- The text of a choice without any square bracket. -/
def dropBrackets
    (cs : List Char) : List Char :=
  cs.filter fun c => c != '[' && c != ']'

/-
  The text before, in and after the square brackets of a
  choice.  Without brackets all of it comes before them.
-/
def splitBrackets
    (line : Nat)
    (cs : List Char) :
    Reading (List Char × List Char × List Char) := do
  let marked := topLevel cs
  let opens := marked.countOpen '['
  let closes := marked.countOpen ']'
  if opens = 0 ∧ closes = 0 then return (cs, [], [])
  if opens = 1 ∧ closes = 1 then
    if let some (head, rest) := marked.cut? '[' then
      if let some (inside, tail) := Marked.cut? ']' rest then
        return (head.chars, inside.chars, tail.chars)
  Reading.report .bracketMismatch line
  return (dropBrackets cs, [], [])

/-
  The body of a choice: conditions, text, a divert and tags.
  Text in square brackets is only shown for choosing, and text
  after them only once the choice is taken.
-/
def readChoice
    (line : Nat)
    (sticky : Bool)
    (body : List Char) : Reading Choice := do
  let (content, tags) := splitTags body
  let (conditions, content) ← readConditions line content
  let (content, target) ← readDivert line content
  let (head, inside, tail) ← splitBrackets line content
  let shown ← readFragments line (trim (head ++ inside))
  let display : ContentLine :=
    { fragments := shown
      line := line
      glueBegin := false
      glueEnd := false
      tags := tags }
  if target = some [] ∧ !display.isBlank then
    Reading.report .emptyChoiceDivert line
  let output ← readGlued line (head ++ tail) target tags
  return {
    display := display
    output := output
    line := line
    conditions := conditions
    sticky := sticky
    fallback := display.isBlank }

end BranchingStory

------------------------------------------------------------
-- Declarations And Assignments
------------------------------------------------------------

namespace BranchingStory

/- The body of a declaration: a name and its first value. -/
def readDeclaration
    (line : Nat)
    (body : List Char) : Reading (Option (String × Value)) :=
  match breakAt '=' body with
  | (_, none) => do
      Reading.report .declarationForm line
      return none
  | (before, some after) =>
      let name := trim before
      if isName name then
        match readLiteral (String.ofList (trim after)) with
        | .ok v => return some (String.ofList name, v)
        | .error fault => do
            Reading.report
              (.invalidLiteral fault (String.ofList name))
              line
            return none
      else do
        Reading.report
          (.invalidVariableName (String.ofList name)) line
        return none

/-
  The operator and the right side of an assignment.  A sign in
  front of the equals sign adds to the variable or subtracts
  from it; a second equals sign makes it no assignment.
-/
def assignmentParts? :
    List Char → Option (Option BinaryOp × List Char)
  | '=' :: '=' :: _ => none
  | '=' :: rest => some (none, trimStart rest)
  | '+' :: '=' :: '=' :: _ => none
  | '+' :: '=' :: rest => some (some .add, trimStart rest)
  | '-' :: '=' :: '=' :: _ => none
  | '-' :: '=' :: rest =>
      some (some .subtract, trimStart rest)
  | _ => none

/- The body of an assignment: a name and an expression. -/
def readAssignment
    (line : Nat)
    (body : List Char) :
    Reading (Option (String × Expr)) := do
  let cs := trim body
  let name := cs.takeWhile isWordChar
  let rest := trimStart (cs.dropWhile isWordChar)
  match name.isEmpty, assignmentParts? rest with
  | false, some (op, value) => do
      let e ← readExpr? line value
      let variableName := String.ofList name
      let current : Expr := .name variableName line none
      return e.map fun e =>
        match op with
        | none => (variableName, e)
        | some op => (variableName, .binary op current e)
  | _, _ => do
      Reading.report .assignmentForm line
      return none

end BranchingStory
