import BranchingStory.Expr.Reading
import BranchingStory.Markup.Content
import BranchingStory.Markup.Marks
import BranchingStory.Markup.Reading

/-
  This file reads content: text with insertions, conditional
  text, alternatives and diverts in it.

  Key definitions include:
    * `readExpr?`
    * `readDivert`
    * `Piece`
    * `pieces`
    * `readPieces`
    * `readItem`
    * `readConditional`
    * `readBraced`
    * `readFragments`
-/

------------------------------------------------------------
-- Expressions And Diverts
------------------------------------------------------------

namespace BranchingStory

/- An expression, or none if it cannot be read. -/
def readExpr?
    (line : Nat)
    (cs : List Char) : Reading (Option Expr) :=
  match Expr.ofText line cs with
  | .ok e => return some e
  | .error (.longNumber digits) => Reading.giveUp digits
  | .error fault => do
      Reading.report
        (.invalidExpression fault (String.ofList (trim cs)))
        line
      return none

/-
  A text without the divert that may end it, and the target of
  the divert.  The target of a bare arrow is empty.
-/
def readDivert
    (line : Nat)
    (cs : List Char) :
    Reading (List Char × Option (List Char)) :=
  match (topLevel cs).splitArrows with
  | [content, rest] => do
      let target := trim rest
      if !target.isEmpty && !isAddressText target then
        Reading.report
          (.invalidTarget (String.ofList target)) line
      return (content, some target)
  | content :: _ :: _ :: _ => do
      Reading.report .secondDivert line
      return (content, none)
  | _ => return (cs, none)

/- The divert to a target, unless the target is empty. -/
def divertTo
    (line : Nat) : Option (List Char) → List Fragment
  | some (c :: rest) =>
      [.divert ⟨String.ofList (c :: rest), line, none⟩]
  | _ => []

end BranchingStory

------------------------------------------------------------
-- Pieces
------------------------------------------------------------

namespace BranchingStory

/-
  What a text is made of: single characters, freed from their
  escapes, texts in braces, and braces without partner.
-/
inductive Piece where
  | char (c : Char)
  | braced (inner : List Char)
  | strayBrace
  | unclosedBrace
deriving DecidableEq, Repr

/- The pieces of a text, up to a bound on their number. -/
def piecesWithin :
    Nat → List Char → List Piece
  | 0, _ => []
  | _ + 1, [] => []
  | n + 1, '\\' :: c :: rest => .char c :: piecesWithin n rest
  | n + 1, '}' :: rest => .strayBrace :: piecesWithin n rest
  | n + 1, '{' :: rest =>
      match takeBraced? 0 false rest with
      | none => [.unclosedBrace]
      | some (inner, rest') =>
          .braced inner :: piecesWithin n rest'
  | n + 1, c :: rest => .char c :: piecesWithin n rest

/- The pieces of a text. -/
def pieces
    (cs : List Char) : List Piece :=
  piecesWithin cs.length cs

/- A text fragment, unless there is no text. -/
def textFragment : List Char → List Fragment
  | [] => []
  | cs => [.text (String.ofList cs)]

/-
  Join the characters between braces into text and read what
  the braces hold.  The characters that wait to be joined are
  kept in reverse.
-/
def readPieces
    (line : Nat)
    (braced : List Char → Reading (Option Fragment)) :
    List Char → List Piece → Reading (List Fragment)
  | waiting, [] => return textFragment waiting.reverse
  | waiting, .char c :: ps =>
      readPieces line braced (c :: waiting) ps
  | waiting, .strayBrace :: ps => do
      Reading.report .strayBrace line
      readPieces line braced waiting ps
  | waiting, .unclosedBrace :: _ => do
      Reading.report .unclosedBrace line
      return textFragment waiting.reverse
  | waiting, .braced inner :: ps => do
      let f ← braced inner
      let fs ← readPieces line braced [] ps
      return textFragment waiting.reverse ++ f.toList ++ fs

end BranchingStory

------------------------------------------------------------
-- Braces
------------------------------------------------------------

namespace BranchingStory

/- A reader of content, on a given line. -/
abbrev ContentReader :=
  List Char → Reading (List Fragment)

/-
  A branch of conditional text or an item of an alternative.
  It may end in a divert.
-/
def readItem
    (line : Nat)
    (content : ContentReader) : ContentReader :=
  fun cs => do
    let (body, target) ← readDivert line cs
    let fs ← content body
    if target = some [] then
      Reading.report .missingTarget line
    return fs ++ divertTo line target

/-
  Conditional text: a condition, and after the colon what is
  shown if it holds and, after a bar, what is shown if not.
-/
def readConditional
    (line : Nat)
    (content : ContentReader)
    (condition : List Char)
    (branches : Marked) : Reading (Option Fragment) := do
  let c ← readExpr? line condition
  if 1 < branches.countOpen '|' then
    Reading.report .multipleElse line
  match branches.cut? '|' with
  | none => do
      let t ← readItem line content branches.chars
      return c.map fun c => .conditional c t []
  | some (yes, no) => do
      let t ← readItem line content yes.chars
      let f ← readItem line content no.chars
      return c.map fun c => .conditional c t f

/- The mode that a leading mark gives to an alternative. -/
def modeOfMark? : Char → Option Mode
  | '&' => some .cycle
  | '!' => some .once
  | '~' => some .shuffle
  | _ => none

/- The mode of an alternative, and its items. -/
def alternativeParts
    (inner : Marked) : Mode × List (List Char) :=
  match inner.dropWhile fun m => isBlank m.1 with
  | [] => (.sequence, inner.split '|')
  | (c, _) :: rest =>
      match modeOfMark? c with
      | some mode => (mode, Marked.split '|' rest)
      | none => (.sequence, inner.split '|')

/-
  Whether a text in braces is an alternative: it has an open
  bar, or begins with the mark of a cycle or a shuffle.
-/
def isAlternative
    (inner : Marked) : Bool :=
  0 < inner.countOpen '|' ||
    match inner.chars.dropWhile isBlank with
    | c :: _ => c == '&' || c == '~'
    | [] => false

/-
  A text in braces: conditional text if it has an open colon,
  else an alternative or an insertion.  An alternative gets
  its number after those within its items.
-/
def readBraced
    (line : Nat)
    (content : ContentReader)
    (inner : List Char) : Reading (Option Fragment) :=
  let marked := braceLevel inner
  if isBlankText inner then do
    Reading.report .emptyBraces line
    return none
  else
    match marked.cut? ':' with
    | some (condition, branches) =>
        readConditional line content condition.chars branches
    | none =>
        if isAlternative marked then do
          let (mode, parts) := alternativeParts marked
          let items ← parts.mapM (readItem line content)
          let number ← Reading.nextNumber
          return some (.alternative mode items number)
        else do
          let e ← readExpr? line inner
          return e.map .insertion

end BranchingStory

------------------------------------------------------------
-- Content
------------------------------------------------------------

namespace BranchingStory

/- Content whose braces are nested up to a bound. -/
def readFragmentsWithin
    (line : Nat) : Nat → ContentReader
  | 0 => fun _ => return []
  | n + 1 => fun cs =>
      readPieces line
        (readBraced line (readFragmentsWithin line n))
        [] (pieces cs)

/-
  The content that a text spells out.  Each level of braces
  takes up characters, so that the length of the text bounds
  their nesting.
-/
def readFragments
    (line : Nat) : ContentReader :=
  fun cs => readFragmentsWithin line cs.length cs

end BranchingStory
