import BranchingStory.Number.Numeral
import BranchingStory.Number.Shortest

/-
  This file defines the values of variables and expressions.

  Key definitions include:
    * `Kind`
    * `Kind.isNumeric`
    * `Value`
    * `Value.kind`
    * `Value.truthy`
    * `Value.text`
    * `Value.isWritable`
    * `Value.extended?`
-/

------------------------------------------------------------
-- Kinds
------------------------------------------------------------

namespace BranchingStory

/- The kinds of values.  A variable never changes its kind. -/
inductive Kind where
  | int
  | float
  | bool
  | string
  | divert
deriving DecidableEq, Repr, Inhabited

namespace Kind

/- The name of a kind. -/
def name : Kind → String
  | .int => "int"
  | .float => "float"
  | .bool => "bool"
  | .string => "string"
  | .divert => "divert"

/- The kinds that arithmetic applies to. -/
def isNumeric : Kind → Bool
  | .int | .float => true
  | _ => false

/- The kinds that a condition can test. -/
def isTestable : Kind → Bool
  | .int | .float | .bool => true
  | _ => false

/- The kind of a given name. -/
def ofName?
    (s : String) : Option Kind :=
  [Kind.int, .float, .bool, .string, .divert].find?
    fun k => k.name = s

end Kind

end BranchingStory

------------------------------------------------------------
-- Values
------------------------------------------------------------

namespace BranchingStory

/-
  A value.  Integers are unbounded.  A divert value holds the
  path of a place in the story.
-/
inductive Value where
  | int (n : Int)
  | float (x : Float)
  | bool (b : Bool)
  | string (s : String)
  | divert (path : String)
deriving DecidableEq, Repr, Inhabited

namespace Value

/- The kind of a value. -/
def kind : Value → Kind
  | .int _ => .int
  | .float _ => .float
  | .bool _ => .bool
  | .string _ => .string
  | .divert _ => .divert

/- What a condition makes of a value. -/
def truthy : Value → Bool
  | .int n => n != 0
  | .float x => x != 0
  | .bool b => b
  | .string s => s != ""
  | .divert s => s != ""

/- The names of the two truth values. -/
def boolText
    (b : Bool) : String :=
  if b then "true" else "false"

/-
  A value as story text shows it.  A float without fractional
  part is shown as an integer.
-/
def text : Value → String
  | .int n => toString n
  | .float x =>
      match isIntegral x, truncated? x with
      | true, some n => toString n
      | _, _ => doubleText x
  | .bool b => boolText b
  | .string s => s
  | .divert s => s

/- A value in full: a float keeps its point. -/
def fullText : Value → String
  | .float x => doubleText x
  | v => v.text

/- Whether a value can be written: an integer can be too long. -/
def isWritable : Value → Bool
  | .int n => isShortInt n
  | _ => true

/- The place of a numeric value among all numbers. -/
def extended? : Value → Option Extended
  | .int n => some (.ofInt n)
  | .float x => some (.ofDouble x)
  | _ => none

end Value

end BranchingStory
