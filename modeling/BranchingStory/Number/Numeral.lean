import BranchingStory.Text.CharClass
import BranchingStory.Number.Double

/-
  This file reads numbers.  Digits of every script are read;
  one underscore may stand between two digits, and blanks may
  surround the number.  Integers are neither read nor written
  with more than `maxDigits` digits.

  Key definitions include:
    * `maxDigits`
    * `isShortInt`
    * `IntFault`
    * `takeDigits`
    * `readInt`
    * `readInt?`
    * `scaledDouble`
    * `readDouble?`
-/

------------------------------------------------------------
-- The Length Of Integers
------------------------------------------------------------

namespace BranchingStory

/- The most digits with which an integer is read or written. -/
def maxDigits : Nat :=
  4300

/- Whether an integer is short enough to be written. -/
def isShortInt
    (n : Int) : Bool :=
  n.natAbs < Nat.pow 10 maxDigits

/- The beginning of the wording of both faults of length. -/
def lengthMessage : String :=
  s!"Exceeds the limit ({maxDigits} digits) for integer " ++
    "string conversion"

/- The end of the wording of both faults of length. -/
def lengthAdvice : String :=
  "; use sys.set_int_max_str_digits() to increase the limit"

/- The wording of the fault of reading too many digits. -/
def longNumeralMessage
    (digits : Nat) : String :=
  lengthMessage ++ s!": value has {digits} digits" ++
    lengthAdvice

/- The wording of the fault of writing too many digits. -/
def longIntMessage : String :=
  lengthMessage ++ lengthAdvice

/- Why a text is not read as an integer. -/
inductive IntFault where
  | malformed
  | tooLong (digits : Nat)
deriving DecidableEq, Repr

end BranchingStory

------------------------------------------------------------
-- Digits
------------------------------------------------------------

namespace BranchingStory

/-
  The blanks that may surround a number.  The information
  separators are not among them.
-/
def isNumberBlank
    (c : Char) : Bool :=
  isBlank c && !(28 ≤ c.toNat && c.toNat ≤ 31)

/- The text without the blanks around a number. -/
def trimNumber
    (cs : List Char) : List Char :=
  ((cs.dropWhile isNumberBlank).reverse.dropWhile
    isNumberBlank).reverse

/-
  The values of the leading digits, and the rest.  After a
  digit an underscore is passed over if a digit follows it.
-/
def takeDigits
    (afterDigit : Bool) :
    List Char → List Nat × List Char
  | [] => ([], [])
  | c :: rest =>
      match digitValue? c with
      | some d =>
          let (ds, rest') := takeDigits true rest
          (d :: ds, rest')
      | none =>
          if afterDigit && c == '_' &&
              (rest.head?.map isDigit).getD false then
            takeDigits false rest
          else ([], c :: rest)

/- The number that a list of decimal digits stands for. -/
def ofDigits
    (ds : List Nat) : Nat :=
  ds.foldl (fun n d => 10 * n + d) 0

/- Whether a minus sign leads, and what follows the sign. -/
def takeSign :
    List Char → Bool × List Char
  | '-' :: rest => (true, rest)
  | '+' :: rest => (false, rest)
  | cs => (false, cs)

/-
  Read an integer that fills the whole text.  Leading zeros
  count as digits, and too many digits are a fault whatever
  follows them, an underscore excepted.
-/
def readInt
    (cs : List Char) : Except IntFault Int :=
  let (negative, body) := takeSign (trimNumber cs)
  match takeDigits false body with
  | ([], _) => .error .malformed
  | (_, '_' :: _) => .error .malformed
  | (ds, rest) =>
      if maxDigits < ds.length then
        .error (.tooLong ds.length)
      else if rest.isEmpty then
        .ok (if negative then -(ofDigits ds : Int)
          else ofDigits ds)
      else .error .malformed

/- The integer that a text stands for, if it can be read. -/
def readInt?
    (cs : List Char) : Option Int :=
  (readInt cs).toOption

end BranchingStory

------------------------------------------------------------
-- Decimals
------------------------------------------------------------

namespace BranchingStory

/-
  The double nearest to `digits * 10 ^ exponent`.  Numbers
  that are far out of range are settled by their size alone.
-/
def scaledDouble
    (negative : Bool)
    (digits : Nat)
    (exponent : Int) : Float :=
  if digits = 0 then nearestDouble negative 0 1
  else
    let size := (Nat.toDigits 10 digits).length + exponent
    if 400 < size then infinity negative
    else if size < -400 then nearestDouble negative 0 1
    else
      nearestDouble negative
        (digits * Nat.pow 10 exponent.toNat)
        (Nat.pow 10 (-exponent).toNat)

/- The digits after a point, if there is a point. -/
def takeFraction :
    List Char → List Nat × List Char
  | '.' :: rest => takeDigits false rest
  | cs => ([], cs)

/-
  The exponent after the letter `e`, or zero where there is
  none.  The letter must be followed by digits, with or
  without a sign, up to the end of the text.
-/
def readExponent? :
    List Char → Option Int
  | [] => some 0
  | c :: rest =>
      if c = 'e' ∨ c = 'E' then
        let (negative, body) := takeSign rest
        match takeDigits false body with
        | ([], _) => none
        | (ds, []) =>
            some (if negative then -(ofDigits ds : Int)
              else ofDigits ds)
        | _ => none
      else none

/- Read a decimal that fills the whole text. -/
def readDecimal?
    (negative : Bool)
    (cs : List Char) : Option Float :=
  let (whole, rest) := takeDigits false cs
  let (fraction, rest) := takeFraction rest
  if whole.isEmpty && fraction.isEmpty then none
  else
    (readExponent? rest).map fun e =>
      scaledDouble negative (ofDigits (whole ++ fraction))
        (e - fraction.length)

/-
  Read a double that fills the whole text: a decimal, an
  infinity or "nan", the names in any letter case.
-/
def readDouble?
    (cs : List Char) : Option Float :=
  let (negative, body) := takeSign (trimNumber cs)
  let name := String.ofList (body.map Char.toLower)
  if name = "inf" ∨ name = "infinity" then
    some (infinity negative)
  else if name = "nan" then some notANumber
  else readDecimal? negative body

end BranchingStory
