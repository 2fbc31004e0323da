import BranchingStory.Outline.Builder
import BranchingStory.Story.Check

/-
  This file reads a story from the text of its script.

  Key definitions include:
    * `Story`
    * `ReadError`
    * `ReadError.message`
    * `readOutline`
    * `Story.read`
-/

------------------------------------------------------------
-- Stories
------------------------------------------------------------

namespace BranchingStory

/- A story that can be played, and the notes on its script. -/
structure Story where
  outline : Outline
  log : IssueLog

/-
  What makes a script unreadable: all the errors in it, or a
  number that reading gave up over.
-/
inductive ReadError where
  | faulty (errors : List Issue)
  | longNumber (n : LongNumber)
deriving DecidableEq, Repr

/- The wording of a read error: one line for each issue. -/
def ReadError.message : ReadError → String
  | .faulty errors =>
      s!"story has {errors.length} error(s):\n" ++
        "\n".intercalate (errors.map Issue.text)
  | .longNumber n => n.message

/- The outline of a script, if it has any content. -/
def readOutline
    (source : String) : Reading (Option Outline) := do
  let ls ← classifyScript source
  match ← buildOutline ls with
  | none => return none
  | some o => do
      o.check
      return some o

namespace Story

/-
  Read a script.  A single error makes it unreadable; all of
  them are given.
-/
def read
    (source : String) : Except ReadError Story :=
  match (readOutline source).start with
  | .error n => .error (.longNumber n)
  | .ok (some o, issues) =>
      if issues.any Issue.isError then
        .error (.faulty (issues.filter Issue.isError))
      else .ok ⟨o.resolve, .ofIssues issues⟩
  | .ok (none, issues) =>
      .error (.faulty (issues.filter Issue.isError))

end Story

end BranchingStory
