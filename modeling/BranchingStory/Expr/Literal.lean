import BranchingStory.Expr.Token

/-
  This file reads the literals that variables are declared
  with.

  Key definitions include:
    * `numberOfText?`
    * `boolOfWord?`
    * `readLiteral`
-/

------------------------------------------------------------
-- Literals
------------------------------------------------------------

namespace BranchingStory

/- A word with its ASCII letters in lower case. -/
def lowerWord
    (s : String) : String :=
  String.ofList (s.toList.map Char.toLower)

/- The truth value that a word names, in any letter case. -/
def boolOfWord?
    (s : String) : Option Bool :=
  if lowerWord s = "true" then some true
  else if lowerWord s = "false" then some false
  else none

/-
  The value of a text that should be a number: with a point
  it is a float, and otherwise an integer.  An integer that is
  too long is not read.
-/
def numberOfText?
    (cs : List Char) : Option Value :=
  if cs.contains '.' then (readDouble? cs).map .float
  else (readInt? cs).map .int

/- A quoted text from its first quote to its last. -/
def readQuoted
    (cs : List Char) : Except SyntaxError Value :=
  match cs.reverse with
  | '"' :: body :: rest =>
      .ok (.string (String.ofList
        (unescape ((body :: rest).reverse.drop 1))))
  | _ => .error (.unterminatedQuote (String.ofList cs))

/-
  Read a declared value: a truth value, a quoted text, a
  divert target after an arrow, or a number.
-/
def readLiteral
    (text : String) : Except SyntaxError Value :=
  match boolOfWord? text, text.toList with
  | some b, _ => .ok (.bool b)
  | none, '"' :: rest => readQuoted ('"' :: rest)
  | none, '-' :: '>' :: rest =>
      let target := trim rest
      if isAddressText target then
        .ok (.divert (String.ofList target))
      else .error (.invalidTarget text)
  | none, cs =>
      match numberOfText? cs with
      | some v => .ok v
      | none => .error (.invalidLiteral text)

end BranchingStory
