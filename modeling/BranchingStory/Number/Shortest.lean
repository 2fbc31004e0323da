import BranchingStory.Number.Double

/-
  This file writes a double with the fewest decimal digits
  that read back as the same double, and among those with the
  digits nearest to its value.

  Key definitions include:
    * `Decimal`
    * `shortestDecimal`
    * `Decimal.text`
    * `doubleText`
-/

------------------------------------------------------------
-- Shortest Digits
------------------------------------------------------------

namespace BranchingStory

/-
  A positive decimal: its digits, read as a number, and the
  place of the point, counted from before the first digit.
-/
structure Decimal where
  digits : Nat
  point : Int
deriving DecidableEq, Repr

/- Multiply by a power of ten unless the power is negative. -/
def scaleTen
    (n : Nat)
    (k : Int) : Nat :=
  n * Nat.pow 10 k.toNat

/-
  The least exponent such that a positive ratio is below that
  power of ten.
-/
def decimalPoint
    (num den : Nat) : Int :=
  let guess :=
    (((num.log2 : Int) - den.log2) * 30103).fdiv 100000
  let below (k : Int) : Bool :=
    scaleTen num (-k) < scaleTen den k
  if below (guess - 1) then guess - 1
  else if below guess then guess
  else if below (guess + 1) then guess + 1
  else guess + 2

/-
  The interval of numbers that round to a finite double, all
  over one denominator.  Its ends belong to it when the
  significand is even.
-/
structure Interval where
  low : Nat
  value : Nat
  high : Nat
  denominator : Nat
  closed : Bool

namespace Interval

/-
  The interval around a finite double.  Below a power of two
  the next double is only half as far away.
-/
def around
    (x : Finite) : Interval :=
  let m := x.significand
  let gap :=
    if m = Nat.pow 2 52 ∧ -1074 < x.exponent then 1 else 2
  let scale := x.exponent - 2
  { low := shiftUp (4 * m - gap) scale
    value := shiftUp (4 * m) scale
    high := shiftUp (4 * m + 2) scale
    denominator := shiftUp 1 (-scale)
    closed := m % 2 = 0 }

/-
  Whether a whole number of units `10 ^ k` lies in the
  interval.
-/
def holds
    (i : Interval)
    (k : Int)
    (n : Nat) : Bool :=
  let point := scaleTen (n * i.denominator) k
  let low := scaleTen i.low (-k)
  let high := scaleTen i.high (-k)
  if i.closed then low ≤ point && point ≤ high
  else low < point && point < high

/-
  The point of the grid `10 ^ k` nearest to the value, if one
  of its two neighbours on the grid lies in the interval.  A
  tie goes to the even neighbour.
-/
def nearest?
    (i : Interval)
    (k : Int) : Option Nat :=
  let num := scaleTen i.value (-k)
  let den := scaleTen i.denominator k
  let below := num / den
  let above := below + 1
  match i.holds k below, i.holds k above with
  | false, false => none
  | true, false => some below
  | false, true => some above
  | true, true => some (roundQuotient num den)

end Interval

/-
  The shortest decimal of a positive finite double.  Seventeen
  digits are always enough.
-/
def shortestDecimal
    (x : Finite) : Decimal :=
  let i := Interval.around x
  let point := decimalPoint i.value i.denominator
  let found :=
    (List.range' 1 17).findSome? fun (n : Nat) =>
      (i.nearest? (point - (n : Int))).map fun d => (d, n)
  match found with
  | some (d, n) =>
      if d = Nat.pow 10 n then ⟨1, point + 1⟩ else ⟨d, point⟩
  | none => ⟨0, 1⟩

end BranchingStory

------------------------------------------------------------
-- Written Form
------------------------------------------------------------

namespace BranchingStory

/- The decimal digits of a number. -/
def digitsOf
    (n : Nat) : List Char :=
  Nat.toDigits 10 n

/-
  A decimal is written with a point from `0.0001` up to below
  `10 ^ 16`, at least one digit standing on either side of it.
  Beyond, it is written with an exponent of at least two
  digits.
-/
def Decimal.text
    (d : Decimal) : List Char :=
  let ds := digitsOf d.digits
  let zeros (n : Int) := List.replicate n.toNat '0'
  if -4 < d.point ∧ d.point ≤ 16 then
    if d.point ≤ 0 then
      '0' :: '.' :: zeros (-d.point) ++ ds
    else if ds.length ≤ d.point then
      ds ++ zeros (d.point - ds.length) ++ ['.', '0']
    else
      ds.take d.point.toNat ++ '.' :: ds.drop d.point.toNat
  else
    let e := d.point - 1
    let size := digitsOf e.natAbs
    let mantissa :=
      match ds with
      | [] => []
      | [c] => [c]
      | c :: rest => c :: '.' :: rest
    mantissa ++ 'e' :: (if e < 0 then '-' else '+') ::
      zeros (2 - size.length) ++ size

/-
  The text of a double: its shortest decimal, or a name for
  what is not finite.  Zero keeps its sign.
-/
def doubleText
    (x : Float) : String :=
  match finite? x with
  | none =>
      if x.isNaN then "nan"
      else if x < 0 then "-inf"
      else "inf"
  | some f =>
      let size :=
        if f.significand = 0 then ['0', '.', '0']
        else (shortestDecimal f).text
      String.ofList
        (if f.negative then '-' :: size else size)

end BranchingStory
