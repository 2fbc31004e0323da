import BranchingStory.Address
import BranchingStory.Markup.Reading

/-
  This file splits a script into logical lines.  Comments and
  blank lines are dropped, and the marks at the start of a
  line decide what kind of line it is.

  Key definitions include:
    * `LineKind`
    * `ScriptLine`
    * `cutComment`
    * `dropComment`
    * `classifyKnot`
    * `classifyStitch`
    * `classifyLine`
    * `classifyScript`
-/

------------------------------------------------------------
-- Logical Lines
------------------------------------------------------------

namespace BranchingStory

/- The kinds of logical lines. -/
inductive LineKind where
  | text
  | choice (depth : Nat) (sticky : Bool)
  | gather (depth : Nat)
  | knot
  | stitch
  | declaration (constant : Bool)
  | tag
  | divert
  | assignment
deriving DecidableEq, Repr

/-
  A logical line: its kind, its place in the script, and its
  text without the marks that told the kind.
-/
structure ScriptLine where
  kind : LineKind
  line : Nat
  text : String
deriving DecidableEq, Repr

end BranchingStory

------------------------------------------------------------
-- Comments
------------------------------------------------------------

namespace BranchingStory

/- Put a character in front of what stands before a cut. -/
def consBeforeCut
    (c : Char)
    (parts : List Char × Option (List Char)) :
    List Char × Option (List Char) :=
  (c :: parts.1, parts.2)

/-
  The text before a comment, and the comment if there is one.
  Two slashes begin a comment unless a backslash or a quoted
  text within braces shields them.
-/
def cutComment
    (depth : Nat)
    (quoted : Bool) :
    List Char → List Char × Option (List Char)
  | [] => ([], none)
  | ['\\'] => (['\\'], none)
  | '\\' :: c :: rest =>
      consBeforeCut '\\'
        (consBeforeCut c (cutComment depth quoted rest))
  | c :: rest =>
      if quoted then
        consBeforeCut c (cutComment depth (c != '"') rest)
      else if c = '{' then
        consBeforeCut c (cutComment (depth + 1) false rest)
      else if c = '}' then
        consBeforeCut c (cutComment (depth - 1) false rest)
      else if c = '"' ∧ 0 < depth then
        consBeforeCut c (cutComment depth true rest)
      else if c = '/' ∧ rest.head? = some '/' then
        ([], some (rest.drop 1))
      else
        consBeforeCut c (cutComment depth false rest)

/- The note of a comment that is a reminder. -/
def reminder?
    (comment : List Char) : Option (List Char) :=
  (stripStart? "TODO".toList (trim comment)).map fun note =>
    trim (note.dropWhile (· == ':'))

/-
  A line without its comment.  A comment that begins with
  "TODO" is kept as a reminder of the author.
-/
def dropComment
    (line : Nat)
    (cs : List Char) : Reading (List Char) := do
  let (content, comment) := cutComment 0 false cs
  match comment.bind reminder? with
  | some note =>
      Reading.report (.todo (String.ofList note)) line
  | none => pure ()
  return content

end BranchingStory

------------------------------------------------------------
-- Headers
------------------------------------------------------------

namespace BranchingStory

/- The name in a header, without the equals signs around. -/
def headerName
    (cs : List Char) : List Char :=
  let body := cs.dropWhile (· == '=')
  trim (body.reverse.dropWhile (· == '=')).reverse

/- A header of a knot. -/
def classifyKnot
    (line : Nat)
    (cs : List Char) : Reading (Option ScriptLine) := do
  let name := headerName cs
  if "function ".toList.isPrefixOf name then
    Reading.report .functions line
    return none
  else if isName name then
    return some ⟨.knot, line, String.ofList name⟩
  else
    Reading.report
      (.invalidHeader "knot" (String.ofList name)) line
    return none

/- A header of a stitch. -/
def classifyStitch
    (line : Nat)
    (cs : List Char) : Reading (Option ScriptLine) := do
  let name := headerName cs
  if isName name then
    return some ⟨.stitch, line, String.ofList name⟩
  else
    Reading.report
      (.invalidHeader "stitch" (String.ofList name)) line
    return none

end BranchingStory

------------------------------------------------------------
-- Choices And Gathers
------------------------------------------------------------

namespace BranchingStory

/- The two marks of choices. -/
def isChoiceMark
    (c : Char) : Bool :=
  c == '*' || c == '+'

/- The marks of choices at the start of a line. -/
def choiceMarks
    (cs : List Char) : List Char :=
  (cs.takeWhile fun c => isChoiceMark c || isBlank c).filter
    isChoiceMark

/-
  A choice.  The number of marks is its depth; it is sticky if
  all of them are plus signs.
-/
def classifyChoice
    (line : Nat)
    (cs : List Char) : Reading ScriptLine := do
  let marks := choiceMarks cs
  let body :=
    cs.dropWhile fun c => isChoiceMark c || isBlank c
  if marks.contains '*' && marks.contains '+' then
    Reading.report .mixedMarkers line
  return ⟨.choice marks.length (marks.all (· == '+')),
    line, String.ofList (trim body)⟩

/-
  The number of dashes at the start of a line, and what comes
  after them.  The dash of an arrow does not count.
-/
def takeDashes : List Char → Nat × List Char
  | [] => (0, [])
  | '-' :: '>' :: rest => (0, '-' :: '>' :: rest)
  | c :: rest =>
      if c = '-' then
        let (n, rest') := takeDashes rest
        (n + 1, rest')
      else if isBlank c then takeDashes rest
      else (0, c :: rest)

end BranchingStory

------------------------------------------------------------
-- Classification
------------------------------------------------------------

namespace BranchingStory

/- A line that begins with no mark, but maybe a keyword. -/
def classifyWords
    (line : Nat)
    (cs : List Char) : Reading (Option ScriptLine) := do
  let (word, rest) := breakAt ' ' cs
  let keyword := String.ofList word
  let body := String.ofList (trim (rest.getD []))
  if keyword = "VAR" then
    return some ⟨.declaration false, line, body⟩
  else if keyword = "CONST" then
    return some ⟨.declaration true, line, body⟩
  else if keyword = "INCLUDE" ∨ keyword = "EXTERNAL" then
    Reading.report (.unsupportedKeyword keyword) line
    return none
  else
    return some ⟨.text, line, String.ofList cs⟩

/-
  The logical line of a text without comment and surrounding
  blanks, unless it is not supported.
-/
def classifyLine
    (line : Nat)
    (cs : List Char) : Reading (Option ScriptLine) :=
  match cs with
  | '=' :: '=' :: _ => classifyKnot line cs
  | '=' :: _ => classifyStitch line cs
  | '*' :: _ => some <$> classifyChoice line cs
  | '+' :: _ => some <$> classifyChoice line cs
  | '-' :: '>' :: _ =>
      return some ⟨.divert, line, String.ofList cs⟩
  | '-' :: _ =>
      let (depth, body) := takeDashes cs
      return some
        ⟨.gather depth, line, String.ofList (trim body)⟩
  | '<' :: '-' :: _ => do
      Reading.report .threads line
      return none
  | '#' :: _ =>
      return some ⟨.tag, line, String.ofList cs⟩
  | '~' :: rest =>
      return some
        ⟨.assignment, line, String.ofList (trim rest)⟩
  | _ => classifyWords line cs

/- The logical line of a line of a script, if any. -/
def readScriptLine
    (line : Nat)
    (cs : List Char) : Reading (Option ScriptLine) := do
  let content ← dropComment line cs
  match trim content with
  | [] => return none
  | c :: rest => classifyLine line (c :: rest)

/- The logical lines of the lines from a given number on. -/
def classifyFrom :
    Nat → List (List Char) → Reading (List ScriptLine)
  | _, [] => return []
  | line, cs :: rest => do
      let l ← readScriptLine line cs
      let ls ← classifyFrom (line + 1) rest
      return l.toList ++ ls

/- The logical lines of a script.  Lines count from one. -/
def classifyScript
    (source : String) : Reading (List ScriptLine) :=
  classifyFrom 1 (splitLines source.toList)

end BranchingStory
