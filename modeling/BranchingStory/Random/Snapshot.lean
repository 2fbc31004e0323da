import BranchingStory.Number.Numeral
import BranchingStory.Random.Generator

/-
  This file writes the state of the generator as a JSON value
  and reads it back.  The register and the number of words
  used up stand in one list.

  Key definitions include:
    * `RestoreError`
    * `RestoreError.message`
    * `Generator.snapshot`
    * `wholeNumber`
    * `Restoration`
    * `Generator.restore`
-/

------------------------------------------------------------
-- Faults
------------------------------------------------------------

namespace BranchingStory

/- The name of the type of a JSON value. -/
def Json.typeName : Json → String
  | .null => "NoneType"
  | .bool _ => "bool"
  | .int _ => "int"
  | .float _ => "float"
  | .string _ => "str"
  | .array _ => "list"
  | .object _ => "dict"

/- What can be wrong with the state of a generator. -/
inductive RestoreError where
  | notAnObject (got : Json)
  | missing (key : String)
  | notAList (got : Json)
  | notANumber (got : Json)
  | unreadableNumber (text : String)
  | longNumber (digits : Nat)
  | undefinedNumber
  | infiniteNumber
  | unknownVersion (got : Json)
  | wrongSize
  | negativeWord
  | hugeWord
  | hugePosition
  | positionOutOfRange
deriving Repr

namespace RestoreError

/- The wording of the lack of a field. -/
def subscriptMessage : Json → String
  | .array _ =>
      "list indices must be integers or slices, not str"
  | .string _ => "string indices must be integers, not 'str'"
  | v => s!"'{v.typeName}' object is not subscriptable"

/- The wording of a fault. -/
def message : RestoreError → String
  | .notAnObject v =>
      "malformed RNG state: " ++ subscriptMessage v
  | .missing key => s!"malformed RNG state: '{key}'"
  | .notAList v =>
      s!"malformed RNG state: '{v.typeName}' object is " ++
        "not iterable"
  | .notANumber v =>
      "malformed RNG state: int() argument must be a " ++
        "string, a bytes-like object or a real number, " ++
        s!"not '{v.typeName}'"
  | .unreadableNumber s =>
      "invalid literal for int() with base 10: " ++
        String.ofList ((quotedText s).toList.take 200)
  | .longNumber digits => longNumeralMessage digits
  | .undefinedNumber => "cannot convert float NaN to integer"
  | .infiniteNumber =>
      "cannot convert float infinity to integer"
  | .unknownVersion v =>
      s!"rejected RNG state: state with version {v.shown} " ++
        "passed to Random.setstate() of version 3"
  | .wrongSize =>
      "rejected RNG state: state vector is the wrong size"
  | .negativeWord =>
      "can't convert negative value to unsigned int"
  | .hugeWord =>
      "Python int too large to convert to C unsigned long"
  | .hugePosition =>
      "Python int too large to convert to C long"
  | .positionOutOfRange => "rejected RNG state: invalid state"

/- Whether a number is out of the range of its type. -/
def isOverflow : RestoreError → Bool
  | .infiniteNumber => true
  | .negativeWord => true
  | .hugeWord => true
  | .hugePosition => true
  | _ => false

end RestoreError

end BranchingStory

------------------------------------------------------------
-- Writing
------------------------------------------------------------

namespace BranchingStory

namespace Generator

/- The register and the number of words used up. -/
def internalNumbers
    (g : Generator) : List Nat :=
  (g.words.toList.map UInt32.toNat) ++ [g.used.val]

/- The state of the generator. -/
def snapshot
    (g : Generator) : Json :=
  .object
    [("version", .int 3),
      ("internal",
        .array (g.internalNumbers.map fun (n : Nat) => .int n)),
      ("gauss", g.spare)]

end Generator

end BranchingStory

------------------------------------------------------------
-- Reading
------------------------------------------------------------

namespace BranchingStory

/-
  The whole number of a JSON value.  A float loses its
  fraction, and a text is read as an integer.
-/
def wholeNumber
    (v : Json) : Except RestoreError Int :=
  match v with
  | .int n => .ok n
  | .bool b => .ok (if b then 1 else 0)
  | .float x =>
      match truncated? x with
      | some n => .ok n
      | none =>
          if x.isNaN then .error .undefinedNumber
          else .error .infiniteNumber
  | .string s =>
      match readInt s.toList with
      | .ok n => .ok n
      | .error .malformed => .error (.unreadableNumber s)
      | .error (.tooLong digits) => .error (.longNumber digits)
  | v => .error (.notANumber v)

/- The parts that a JSON value can be gone through by. -/
def jsonElements
    (v : Json) : Except RestoreError (List Json) :=
  match v with
  | .array vs => .ok vs
  | .string s =>
      .ok (s.toList.map fun c => .string c.toString)
  | .object fs => .ok (fs.map fun f => .string f.1)
  | v => .error (.notAList v)

/- A word of the register. -/
def registerWord
    (n : Int) : Except RestoreError UInt32 :=
  if n < 0 then .error .negativeWord
  else if (Nat.pow 2 64 : Nat) ≤ n then .error .hugeWord
  else .ok (UInt32.ofNat (n.toNat % Nat.pow 2 32))

/- The number of words used up. -/
def registerUse
    (n : Int) :
    Except RestoreError (Fin (registerSize + 1)) :=
  let bound : Int := (Nat.pow 2 63 : Nat)
  if n < -bound ∨ bound ≤ n then .error .hugePosition
  else if h : 0 ≤ n ∧ n ≤ registerSize then
    .ok ⟨n.toNat, by omega⟩
  else .error .positionOutOfRange

/-
  The numbers of a state of a given version.  In the second
  version words may be negative; they count modulo `2 ^ 32`.
-/
def versionNumbers
    (version : Json)
    (ns : List Int) : Except RestoreError (List Int) :=
  if version.equalsInt 3 then .ok ns
  else if version.equalsInt 2 then
    .ok (ns.map fun n => n % (Nat.pow 2 32 : Nat))
  else .error (.unknownVersion version)

/-
  An action that takes over a state.  A fault does not undo
  what has been taken over before it.
-/
abbrev Restoration :=
  ExceptT RestoreError (StateM Generator)

namespace Generator

/- The generator of the numbers of a state. -/
def ofNumbers
    (spare : Json)
    (ns : List Int) : Except RestoreError Generator := do
  let words := ns.take registerSize
  match ns.drop registerSize with
  | [position] =>
      let ws ← words.mapM registerWord
      let used ← registerUse position
      if h : ws.toArray.size = registerSize then
        return ⟨⟨ws.toArray, h⟩, used, spare⟩
      else throw .wrongSize
  | _ => throw .wrongSize

/- The numbers in the fields of a state. -/
def readFields
    (fs : List (String × Json)) :
    Except RestoreError (List Int) := do
  let some version := Json.field? fs "version"
    | throw (.missing "version")
  let some internal := Json.field? fs "internal"
    | throw (.missing "internal")
  let elements ← jsonElements internal
  let ns ← elements.mapM wholeNumber
  versionNumbers version ns

/-
  Take over the state that a JSON value is.  The spare value is
  taken over even if the register is refused after it.
-/
def restore
    (v : Json) : Restoration Unit :=
  match v with
  | .object fs => do
      let spare := Json.fieldOrNull fs "gauss"
      let ns ← MonadExcept.ofExcept (readFields fs)
      modify fun g => { g with spare := spare }
      set (← MonadExcept.ofExcept (ofNumbers spare ns))
  | v => throw (.notAnObject v)

end Generator

end BranchingStory
