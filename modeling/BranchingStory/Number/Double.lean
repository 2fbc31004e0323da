/-
  This file reads double-precision numbers as exact dyadic
  numbers and rounds exact ratios to the nearest double.

  `Extended` is the set of values that integers and doubles
  share: every integer, every finite double, the two
  infinities and "not a number".  Comparisons across the two
  kinds of number are made there, without rounding.

  Key definitions include:
    * `Finite`
    * `finite?`
    * `nearestDouble`
    * `doubleOfInt?`
    * `truncated?`
    * `Extended`
    * `Extended.compare?`
    * `remainder?`
-/

------------------------------------------------------------
-- Finite Doubles
------------------------------------------------------------

namespace BranchingStory

/-
  A finite double: its sign, its significand and the exponent
  of the power of two that the significand counts.
-/
structure Finite where
  negative : Bool
  significand : Nat
  exponent : Int
deriving DecidableEq, Repr

/- The exact value of a double, unless it is not finite. -/
def finite?
    (x : Float) : Option Finite :=
  let bits : Nat := x.toBits.toNat
  let negative := decide (Nat.pow 2 63 ≤ bits)
  let biased : Nat := bits / Nat.pow 2 52 % Nat.pow 2 11
  let fraction : Nat := bits % Nat.pow 2 52
  if biased = 2047 then none
  else if biased = 0 then
    some ⟨negative, fraction, -1074⟩
  else
    some ⟨negative, Nat.pow 2 52 + fraction,
      (biased : Int) - 1075⟩

/- The bits of positive infinity. -/
def infinityBits : Nat :=
  2047 * Nat.pow 2 52

/- The signed significand of a finite double. -/
def Finite.signed
    (x : Finite) : Int :=
  if x.negative then -(x.significand : Int)
  else x.significand

end BranchingStory

------------------------------------------------------------
-- Rounding
------------------------------------------------------------

namespace BranchingStory

/- Shift to the left, or to the right by a negative amount. -/
def shiftUp
    (n : Nat)
    (k : Int) : Nat :=
  n * Nat.pow 2 k.toNat

/-
  The quotient of two numbers, rounded to the nearest whole
  number.  A tie goes to the even neighbour.
-/
def roundQuotient
    (num den : Nat) : Nat :=
  let q := num / den
  let r := num % den
  if 2 * r < den then q
  else if 2 * r = den then q + q % 2
  else q + 1

/-
  The exponent of the highest power of two that is not above
  a positive ratio.
-/
def ratioLog
    (num den : Nat) : Int :=
  let e := (num.log2 : Int) - den.log2
  if shiftUp den e ≤ shiftUp num (-e) then e else e - 1

/-
  The bits of the double nearest to a positive ratio.  The
  significand has 53 bits, or fewer at the lowest exponent;
  what lies above the largest double becomes infinity.
-/
def nearestBits
    (num den : Nat) : Nat :=
  let e := max (ratioLog num den - 52) (-1074)
  let m := roundQuotient (shiftUp num (-e)) (shiftUp den e)
  let bits :=
    if m < Nat.pow 2 52 then m
    else
      (e + 1075).toNat * Nat.pow 2 52 + (m - Nat.pow 2 52)
  min bits infinityBits

/- The double nearest to a ratio, with the given sign. -/
def nearestDouble
    (negative : Bool)
    (num den : Nat) : Float :=
  let bits := if num = 0 then 0 else nearestBits num den
  let sign := if negative then Nat.pow 2 63 else 0
  Float.ofBits (UInt64.ofNat (sign + bits))

/- Positive or negative infinity. -/
def infinity
    (negative : Bool) : Float :=
  let sign := if negative then Nat.pow 2 63 else 0
  Float.ofBits (UInt64.ofNat (sign + infinityBits))

/- The double that stands for no number. -/
def notANumber : Float :=
  Float.ofBits (UInt64.ofNat (infinityBits + Nat.pow 2 51))

/-
  The double nearest to an integer, unless the integer lies
  beyond the range of doubles.
-/
def doubleOfInt?
    (n : Int) : Option Float :=
  let x := nearestDouble (decide (n < 0)) n.natAbs 1
  if (finite? x).isSome then some x else none

/- The integer part of a finite double. -/
def truncated?
    (x : Float) : Option Int :=
  (finite? x).map fun f =>
    let size :=
      shiftUp f.significand f.exponent /
        shiftUp 1 (-f.exponent)
    if f.negative then -(size : Int) else size

/- A finite double without a fractional part. -/
def isIntegral
    (x : Float) : Bool :=
  match finite? x with
  | none => false
  | some f => f.significand % shiftUp 1 (-f.exponent) == 0

end BranchingStory

------------------------------------------------------------
-- Exact Comparison
------------------------------------------------------------

namespace BranchingStory

/-
  The values of integers and doubles together.  A finite value
  is a whole number of powers of two.
-/
inductive Extended where
  | notANumber
  | negativeInfinity
  | finite (significand : Int) (exponent : Int)
  | positiveInfinity
deriving DecidableEq, Repr

namespace Extended

/- The value of an integer. -/
def ofInt
    (n : Int) : Extended :=
  .finite n 0

/- The value of a double. -/
def ofDouble
    (x : Float) : Extended :=
  match finite? x with
  | some f => .finite f.signed f.exponent
  | none =>
      if x.isNaN then .notANumber
      else if x < 0 then .negativeInfinity
      else .positiveInfinity

/-
  The order of two values.  What is not a number has no place
  in it.
-/
def compare? :
    Extended → Extended → Option Ordering
  | .notANumber, _ => none
  | _, .notANumber => none
  | .finite m e, .finite n f =>
      let low := min e f
      some (compare (m * (Nat.pow 2 (e - low).toNat : Nat))
        (n * (Nat.pow 2 (f - low).toNat : Nat)))
  | .negativeInfinity, .negativeInfinity => some .eq
  | .positiveInfinity, .positiveInfinity => some .eq
  | .negativeInfinity, _ => some .lt
  | .positiveInfinity, _ => some .gt
  | _, .negativeInfinity => some .gt
  | _, .positiveInfinity => some .lt

end Extended

end BranchingStory

------------------------------------------------------------
-- Remainder
------------------------------------------------------------

namespace BranchingStory

/-
  The remainder of a division whose quotient is truncated.  It
  has the sign of the dividend and is always exact.  Dividing
  an infinity is refused; dividing by one changes nothing.
-/
def remainder?
    (x y : Float) : Option Float :=
  if x.isNaN || y.isNaN then some notANumber
  else
    match finite? x, finite? y with
    | none, _ => none
    | some _, none => some x
    | some f, some g =>
        let low := min f.exponent g.exponent
        let r :=
          shiftUp f.significand (f.exponent - low) %
            shiftUp g.significand (g.exponent - low)
        some (nearestDouble f.negative
          (shiftUp r low) (shiftUp 1 (-low)))

end BranchingStory
