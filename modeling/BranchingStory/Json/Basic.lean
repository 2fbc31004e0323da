import BranchingStory.Number.Shortest
import BranchingStory.Table
import BranchingStory.Text.Quoted

/-
  This file defines JSON values.  Integers and floats are told
  apart, and floats may be infinite or not a number.

  Key definitions include:
    * `Json`
    * `Json.field?`
    * `Json.setField`
    * `Json.ofFields`
    * `Json.equalsInt`
    * `Json.quoted`
    * `Json.shown`
-/

------------------------------------------------------------
-- Values
------------------------------------------------------------

namespace BranchingStory

/- A JSON value.  The keys of an object keep their order. -/
inductive Json where
  | null
  | bool (b : Bool)
  | int (n : Int)
  | float (x : Float)
  | string (s : String)
  | array (items : List Json)
  | object (fields : List (String × Json))
deriving Repr, Inhabited

namespace Json

/- The value of a key among the fields of an object. -/
def field?
    (fields : List (String × Json))
    (key : String) : Option Json :=
  (fields.find? fun f => f.1 = key).map Prod.snd

/- The value of a key, or null where there is none. -/
def fieldOrNull
    (fields : List (String × Json))
    (key : String) : Json :=
  (field? fields key).getD .null

/- The value of a key if the value is an object that has it. -/
def get?
    (key : String) : Json → Option Json
  | .object fields => field? fields key
  | _ => none

/- Set the value of a key among the fields of an object. -/
def setField
    (fields : List (String × Json))
    (key : String)
    (v : Json) : List (String × Json) :=
  Table.insertEntry key v fields

/- Fields in which each key stands once, the last winning. -/
def ofFields
    (fields : List (String × Json)) : Json :=
  .object (fields.foldl (fun fs f => setField fs f.1 f.2) [])

/- Whether a value is an integer, if true counts as one. -/
def equalsInt
    (n : Int) : Json → Bool
  | .bool b => (if b then 1 else 0) = n
  | .int m => m = n
  | .float x =>
      (Extended.ofDouble x).compare? (.ofInt n) == some .eq
  | _ => false

end Json

end BranchingStory

------------------------------------------------------------
-- Showing Values
------------------------------------------------------------

namespace BranchingStory

namespace Json

mutual

/-
  A value as messages show it within others: absence and truth
  values by their names, texts in quotes.
-/
def quoted : Json → String
  | .null => "None"
  | .bool true => "True"
  | .bool false => "False"
  | .int n => toString n
  | .float x => doubleText x
  | .string s => quotedText s
  | .array items =>
      "[" ++ ", ".intercalate (quotedItems items) ++ "]"
  | .object fields =>
      "\x7b" ++ ", ".intercalate (quotedFields fields) ++
        "\x7d"

/- The items of an array as messages show them. -/
def quotedItems : List Json → List String
  | [] => []
  | v :: vs => quoted v :: quotedItems vs

/- The fields of an object as messages show them. -/
def quotedFields : List (String × Json) → List String
  | [] => []
  | (k, v) :: fs =>
      (quotedText k ++ ": " ++ quoted v) :: quotedFields fs

end

/- A value as messages show it: a text without quotes. -/
def shown : Json → String
  | .string s => s
  | v => v.quoted

end Json

end BranchingStory
