import BranchingStory.Json.Basic
import BranchingStory.Number.Numeral

/-
  This file reads JSON texts.  Beyond the standard, `NaN`,
  `Infinity` and `-Infinity` are numbers.  Of a key that is
  repeated in an object the last value counts.

  Key definitions include:
    * `JsonFault`
    * `JsonError`
    * `JsonError.message`
    * `readJsonString`
    * `readJsonNumber?`
    * `Json.read`
-/

------------------------------------------------------------
-- Faults
------------------------------------------------------------

namespace BranchingStory

/- What can be wrong with a JSON text. -/
inductive JsonFault where
  | expectingValue
  | expectingName
  | expectingColon
  | expectingComma
  | unterminatedString
  | controlCharacter
  | invalidEscape
  | invalidUnicodeEscape
  | extraData
  | byteOrderMark
  | longNumber (digits : Nat)
deriving DecidableEq, Repr

/- The wording of a fault. -/
def JsonFault.message : JsonFault → String
  | .expectingValue => "Expecting value"
  | .expectingName =>
      "Expecting property name enclosed in double quotes"
  | .expectingColon => "Expecting ':' delimiter"
  | .expectingComma => "Expecting ',' delimiter"
  | .unterminatedString => "Unterminated string starting at"
  | .controlCharacter => "Invalid control character at"
  | .invalidEscape => "Invalid \\escape"
  | .invalidUnicodeEscape => "Invalid \\uXXXX escape"
  | .extraData => "Extra data"
  | .byteOrderMark =>
      "Unexpected UTF-8 BOM (decode using utf-8-sig)"
  | .longNumber digits => longNumeralMessage digits

/- Whether a fault lies in the length of a number. -/
def JsonFault.isLength : JsonFault → Bool
  | .longNumber _ => true
  | _ => false

/-
  A fault and its place: the line and the column, both from
  one, and the number of characters before it.
-/
structure JsonError where
  fault : JsonFault
  line : Nat
  column : Nat
  offset : Nat
deriving DecidableEq, Repr

/- The wording of an error.  A long number is not located. -/
def JsonError.message
    (e : JsonError) : String :=
  if e.fault.isLength then e.fault.message
  else
    s!"{e.fault.message}: line {e.line} column " ++
      s!"{e.column} (char {e.offset})"

/- The error of a fault after some text. -/
def JsonError.after
    (fault : JsonFault)
    (before : List Char) : JsonError :=
  { fault := fault
    line := before.count '\n' + 1
    column :=
      (before.reverse.takeWhile (· != '\n')).length + 1
    offset := before.length }

/-
  The outcome of reading from a text: what was read and the
  rest of the text, or a fault and how much text was left
  where it was found.
-/
abbrev JsonStep
    (α : Type) :=
  Except (JsonFault × Nat) (α × List Char)

end BranchingStory

------------------------------------------------------------
-- Strings
------------------------------------------------------------

namespace BranchingStory

/- The value of a digit to base sixteen. -/
def hexValue?
    (c : Char) : Option Nat :=
  let n := c.toNat
  if 48 ≤ n ∧ n ≤ 57 then some (n - 48)
  else if 97 ≤ n ∧ n ≤ 102 then some (n - 87)
  else if 65 ≤ n ∧ n ≤ 70 then some (n - 55)
  else none

/- The value of four digits to base sixteen. -/
def hexUnit?
    (a b c d : Char) : Option Nat := do
  let a ← hexValue? a
  let b ← hexValue? b
  let c ← hexValue? c
  let d ← hexValue? d
  return ((a * 16 + b) * 16 + c) * 16 + d

/- The character that a letter after a backslash means. -/
def simpleEscape? : Char → Option Char
  | '"' => some '"'
  | '\\' => some '\\'
  | '/' => some '/'
  | 'b' => some '\x08'
  | 'f' => some '\x0c'
  | 'n' => some '\n'
  | 'r' => some '\r'
  | 't' => some '\t'
  | _ => none

/-
  The units of a string up to its closing quote.  Escapes give
  units of sixteen bits.  The first argument is the length of
  the text from the opening quote on.
-/
def readUnits
    (opening : Nat) : List Char → JsonStep (List Nat)
  | [] => .error (.unterminatedString, opening)
  | '"' :: rest => .ok ([], rest)
  | ['\\'] => .error (.unterminatedString, opening)
  | '\\' :: 'u' :: a :: b :: c :: d :: rest =>
      let place := rest.length + 5
      match hexUnit? a b c d, rest.isEmpty with
      | some u, false =>
          match readUnits opening rest with
          | .ok (us, rest') => .ok (u :: us, rest')
          | .error e => .error e
      | _, _ => .error (.invalidUnicodeEscape, place)
  | '\\' :: c :: rest =>
      match simpleEscape? c with
      | some c' =>
          match readUnits opening rest with
          | .ok (us, rest') => .ok (c'.toNat :: us, rest')
          | .error e => .error e
      | none =>
          if c = 'u' then
            .error (.invalidUnicodeEscape, rest.length + 1)
          else .error (.invalidEscape, rest.length + 2)
  | c :: rest =>
      if c.toNat < 32 then
        .error (.controlCharacter, rest.length + 1)
      else
        match readUnits opening rest with
        | .ok (us, rest') => .ok (c.toNat :: us, rest')
        | .error e => .error e

/- The character of a unit.  Half a pair has none. -/
def unitChar
    (u : Nat) : Char :=
  if 0xD800 ≤ u ∧ u < 0xE000 then '\uFFFD'
  else Char.ofNat u

/- The characters of units, pairs of halves joined. -/
def joinUnits : List Nat → List Char
  | [] => []
  | [u] => [unitChar u]
  | u :: v :: rest =>
      if 0xD800 ≤ u ∧ u < 0xDC00 ∧
          0xDC00 ≤ v ∧ v < 0xE000 then
        Char.ofNat
          (0x10000 + (u - 0xD800) * 0x400 + (v - 0xDC00)) ::
          joinUnits rest
      else unitChar u :: joinUnits (v :: rest)

/- A string, given the text after its opening quote. -/
def readJsonString
    (cs : List Char) : JsonStep String :=
  match readUnits (cs.length + 1) cs with
  | .ok (us, rest) =>
      .ok (String.ofList (joinUnits us), rest)
  | .error e => .error e

end BranchingStory

------------------------------------------------------------
-- Numbers
------------------------------------------------------------

namespace BranchingStory

/- The fraction of a number, with its point. -/
def takeJsonFraction
    (cs : List Char) : List Char × List Char :=
  match cs with
  | '.' :: c :: rest =>
      if c.isDigit then
        ('.' :: (c :: rest).takeWhile Char.isDigit,
          (c :: rest).dropWhile Char.isDigit)
      else ([], cs)
  | _ => ([], cs)

/- The exponent of a number, with its letter and sign. -/
def takeJsonExponent
    (cs : List Char) : List Char × List Char :=
  match cs with
  | [] => ([], [])
  | e :: rest =>
      let (sign, digits) :=
        match rest with
        | '+' :: ds => (['+'], ds)
        | '-' :: ds => (['-'], ds)
        | ds => ([], ds)
      let size := digits.takeWhile Char.isDigit
      if (e = 'e' ∨ e = 'E') ∧ !size.isEmpty then
        (e :: sign ++ size, digits.dropWhile Char.isDigit)
      else ([], cs)

/- The whole part of a number, without superfluous zeros. -/
def takeJsonWhole? :
    List Char → Option (List Char × List Char)
  | '0' :: rest => some (['0'], rest)
  | c :: rest =>
      if c.isDigit then
        some ((c :: rest).takeWhile Char.isDigit,
          (c :: rest).dropWhile Char.isDigit)
      else none
  | [] => none

/-
  The value of a number, given its whole part with its sign,
  and its fraction with its exponent.  It is a float if it has
  any of these.
-/
def jsonNumber
    (whole fraction : List Char) : Except JsonFault Json :=
  if fraction.isEmpty then
    match readInt whole with
    | .ok n => .ok (.int n)
    | .error (.tooLong digits) => .error (.longNumber digits)
    | .error .malformed => .error .expectingValue
  else
    match readDouble? (whole ++ fraction) with
    | some x => .ok (.float x)
    | none => .error .expectingValue

/- A number at the start of a text, if there is one. -/
def readJsonNumber?
    (cs : List Char) : Option (JsonStep Json) := do
  let (sign, body) :=
    match cs with
    | '-' :: rest => (['-'], rest)
    | _ => ([], cs)
  let (whole, rest) ← takeJsonWhole? body
  let (fraction, rest) := takeJsonFraction rest
  let (exponent, rest) := takeJsonExponent rest
  let number := jsonNumber (sign ++ whole) (fraction ++ exponent)
  some ((number.map fun v => (v, rest)).mapError
    fun fault => (fault, cs.length))

end BranchingStory

------------------------------------------------------------
-- Values
------------------------------------------------------------

namespace BranchingStory

/- The blanks between the tokens of a JSON text. -/
def isJsonBlank
    (c : Char) : Bool :=
  c == ' ' || c == '\t' || c == '\n' || c == '\r'

/- The text after leading blanks. -/
def skipJsonBlanks
    (cs : List Char) : List Char :=
  cs.dropWhile isJsonBlank

/- The words that are values. -/
def jsonWords : List (List Char × Json) :=
  [("null".toList, .null),
    ("true".toList, .bool true),
    ("false".toList, .bool false),
    ("NaN".toList, .float notANumber),
    ("Infinity".toList, .float (infinity false)),
    ("-Infinity".toList, .float (infinity true))]

/- A word that is a value, at the start of a text. -/
def readJsonWord?
    (cs : List Char) : Option (Json × List Char) :=
  jsonWords.findSome? fun w =>
    if w.1.isPrefixOf cs then
      some (w.2, cs.drop w.1.length)
    else none

mutual

/- A value at the start of a text, nested up to a bound. -/
def readJsonValue :
    Nat → List Char → JsonStep Json
  | 0, cs => .error (.expectingValue, cs.length)
  | n + 1, cs =>
      match cs with
      | '"' :: rest =>
          match readJsonString rest with
          | .ok (s, rest') => .ok (.string s, rest')
          | .error e => .error e
      | '{' :: rest =>
          match skipJsonBlanks rest with
          | '}' :: rest' => .ok (.object [], rest')
          | rest' =>
              match readJsonFields n rest' with
              | .ok (fs, rest'') =>
                  .ok (Json.ofFields fs, rest'')
              | .error e => .error e
      | '[' :: rest =>
          match skipJsonBlanks rest with
          | ']' :: rest' => .ok (.array [], rest')
          | rest' =>
              match readJsonItems n rest' with
              | .ok (vs, rest'') => .ok (.array vs, rest'')
              | .error e => .error e
      | _ =>
          match readJsonWord? cs, readJsonNumber? cs with
          | some r, _ => .ok r
          | none, some r => r
          | none, none => .error (.expectingValue, cs.length)

/- The items of an array up to its closing bracket. -/
def readJsonItems :
    Nat → List Char → JsonStep (List Json)
  | 0, cs => .error (.expectingValue, cs.length)
  | n + 1, cs =>
      match readJsonValue n cs with
      | .error e => .error e
      | .ok (v, rest) =>
          match skipJsonBlanks rest with
          | ']' :: rest' => .ok ([v], rest')
          | ',' :: rest' =>
              match readJsonItems n (skipJsonBlanks rest') with
              | .ok (vs, rest'') => .ok (v :: vs, rest'')
              | .error e => .error e
          | rest' => .error (.expectingComma, rest'.length)

/- The fields of an object up to its closing brace. -/
def readJsonFields :
    Nat → List Char → JsonStep (List (String × Json))
  | 0, cs => .error (.expectingName, cs.length)
  | n + 1, cs =>
      match cs with
      | '"' :: rest =>
          match readJsonString rest with
          | .error e => .error e
          | .ok (k, rest) =>
              match skipJsonBlanks rest with
              | ':' :: rest =>
                  match readJsonValue n
                      (skipJsonBlanks rest) with
                  | .error e => .error e
                  | .ok (v, rest) =>
                      match skipJsonBlanks rest with
                      | '}' :: rest => .ok ([(k, v)], rest)
                      | ',' :: rest =>
                          match readJsonFields n
                              (skipJsonBlanks rest) with
                          | .ok (fs, rest) =>
                              .ok ((k, v) :: fs, rest)
                          | .error e => .error e
                      | rest =>
                          .error (.expectingComma, rest.length)
              | rest => .error (.expectingColon, rest.length)
      | _ => .error (.expectingName, cs.length)

end

end BranchingStory

------------------------------------------------------------
-- Whole Texts
------------------------------------------------------------

namespace BranchingStory

namespace Json

/-
  The value of a whole text.  Every step into an array or an
  object takes up a character, so that twice the length of the
  text bounds the steps.
-/
def readSteps
    (cs : List Char) : Except (JsonFault × Nat) Json :=
  match cs with
  | '\uFEFF' :: _ => .error (.byteOrderMark, cs.length)
  | _ =>
      match readJsonValue (2 * cs.length + 1)
          (skipJsonBlanks cs) with
      | .error e => .error e
      | .ok (v, rest) =>
          match skipJsonBlanks rest with
          | [] => .ok v
          | rest' => .error (.extraData, rest'.length)

/- Read a JSON text, telling the place of a fault. -/
def read
    (text : String) : Except JsonError Json :=
  let cs := text.toList
  match readSteps cs with
  | .ok v => .ok v
  | .error (fault, left) =>
      .error (.after fault (cs.take (cs.length - left)))

end Json

end BranchingStory
