import BranchingStory.Json.Basic
import BranchingStory.Number.Numeral

/-
  This file writes JSON texts: one item or field to a line,
  two blanks for each level, the keys of every object sorted,
  and every character beyond ASCII escaped.

  Key definitions include:
    * `jsonChar`
    * `jsonString`
    * `jsonFloat`
    * `Json.sortFields`
    * `Json.write`
    * `Json.isWritable`
-/

------------------------------------------------------------
-- Strings And Numbers
------------------------------------------------------------

namespace BranchingStory

/- The escape of a unit of sixteen bits. -/
def unitEscape
    (u : Nat) : List Char :=
  '\\' :: 'u' :: hexDigits 4 u

/-
  A character within a string.  Beyond the basic plane it is
  written as a pair of halves.
-/
def jsonChar
    (c : Char) : List Char :=
  let n := c.toNat
  if c = '"' ∨ c = '\\' then ['\\', c]
  else if 32 ≤ n ∧ n < 127 then [c]
  else if c = '\n' then ['\\', 'n']
  else if c = '\r' then ['\\', 'r']
  else if c = '\t' then ['\\', 't']
  else if n = 8 then ['\\', 'b']
  else if n = 12 then ['\\', 'f']
  else if n < 0x10000 then unitEscape n
  else
    unitEscape (0xD800 + (n - 0x10000) / 0x400) ++
      unitEscape (0xDC00 + (n - 0x10000) % 0x400)

/- A string in its quotes. -/
def jsonString
    (s : String) : String :=
  String.ofList
    ('"' :: s.toList.flatMap jsonChar ++ ['"'])

/- A float, with names for what is not finite. -/
def jsonFloat
    (x : Float) : String :=
  match finite? x with
  | some _ => doubleText x
  | none =>
      if x.isNaN then "NaN"
      else if x < 0 then "-Infinity"
      else "Infinity"

end BranchingStory

------------------------------------------------------------
-- Values
------------------------------------------------------------

namespace BranchingStory

namespace Json

/- Fields in the order of their keys. -/
def sortFields
    (fields : List (String × String)) :
    List (String × String) :=
  fields.mergeSort fun f g => f.1 ≤ g.1

/- A new line at a level of nesting. -/
def newLine
    (level : Nat) : String :=
  String.ofList ('\n' :: List.replicate (2 * level) ' ')

mutual

/- A value at a level of nesting. -/
def writeAt
    (level : Nat) : Json → String
  | .null => "null"
  | .bool b => if b then "true" else "false"
  | .int n => toString n
  | .float x => jsonFloat x
  | .string s => jsonString s
  | .array [] => "[]"
  | .array (v :: vs) =>
      let gap := newLine (level + 1)
      "[" ++ gap ++
        ("," ++ gap).intercalate
          (writeItems (level + 1) (v :: vs)) ++
        newLine level ++ "]"
  | .object [] => "\x7b\x7d"
  | .object (f :: fs) =>
      let gap := newLine (level + 1)
      let fields :=
        sortFields (writeFields (level + 1) (f :: fs))
      "\x7b" ++ gap ++
        ("," ++ gap).intercalate
          (fields.map fun f =>
            jsonString f.1 ++ ": " ++ f.2) ++
        newLine level ++ "\x7d"

/- The items of an array at their level. -/
def writeItems
    (level : Nat) : List Json → List String
  | [] => []
  | v :: vs => writeAt level v :: writeItems level vs

/- The values of an object at their level, by their keys. -/
def writeFields
    (level : Nat) :
    List (String × Json) → List (String × String)
  | [] => []
  | (k, v) :: fs =>
      (k, writeAt level v) :: writeFields level fs

end

/- The text of a value. -/
def write
    (v : Json) : String :=
  writeAt 0 v

mutual

/- Whether all integers in a value are short enough. -/
def isWritable : Json → Bool
  | .int n => isShortInt n
  | .array vs => itemsAreWritable vs
  | .object fs => fieldsAreWritable fs
  | _ => true

/- Whether all integers in some items are short enough. -/
def itemsAreWritable : List Json → Bool
  | [] => true
  | v :: vs => isWritable v && itemsAreWritable vs

/- Whether all integers in some fields are short enough. -/
def fieldsAreWritable : List (String × Json) → Bool
  | [] => true
  | (_, v) :: fs => isWritable v && fieldsAreWritable fs

end

end Json

end BranchingStory
