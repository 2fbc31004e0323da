import BranchingStory.Expr.Basic
import BranchingStory.Table

/-
  This file evaluates expressions.  Integers are exact, their
  division is truncated toward zero, and a float on either
  side makes an operation one on floats.

  Key definitions include:
    * `EvalError`
    * `EvalError.message`
    * `Memory`
    * `truncatedQuotient`
    * `truncatedRemainder`
    * `integerArithmetic`
    * `floatArithmetic`
    * `Expr.eval`
-/

------------------------------------------------------------
-- Faults
------------------------------------------------------------

namespace BranchingStory

/-
  The faults of an evaluation.  The last two come from the
  arithmetic of floats: an integer beyond their range, and the
  remainder of an infinity.
-/
inductive EvalError where
  | unresolvedTarget (path : String)
  | unknownVariable (name : String)
  | cannotNegate (kind : Kind)
  | cannotApply (op : BinaryOp) (left right : Kind)
  | cannotCompare (left right : Kind)
  | integerDivisionByZero
  | divisionByZero
  | beyondFloatRange
  | remainderOfInfinity
deriving DecidableEq, Repr

/- The wording of a fault of an evaluation. -/
def EvalError.message : EvalError → String
  | .unresolvedTarget s => s!"unresolved divert target '{s}'"
  | .unknownVariable s => s!"unknown variable '{s}'"
  | .cannotNegate k => s!"cannot negate a {k.name} value"
  | .cannotApply op l r =>
      s!"cannot apply '{op.symbol}' to {l.name} and " ++
        s!"{r.name} values"
  | .cannotCompare l r =>
      s!"cannot compare {l.name} with {r.name}"
  | .integerDivisionByZero => "integer division by zero"
  | .divisionByZero => "division by zero"
  | .beyondFloatRange =>
      "int too large to convert to float"
  | .remainderOfInfinity => "math domain error"

end BranchingStory

------------------------------------------------------------
-- Memory
------------------------------------------------------------

namespace BranchingStory

/-
  What expressions read: the variables, and how often each
  place of the story has been entered.
-/
structure Memory where
  vars : Table String Value
  visits : Table Address Int
deriving Repr, DecidableEq

namespace Memory

/- The number of times that a place has been entered. -/
def visitsTo
    (m : Memory)
    (a : Address) : Int :=
  (m.visits.lookup a).getD 0

/- What a name stands for, as far as it is known. -/
def read
    (m : Memory)
    (name : String) :
    Option Meaning → Except EvalError Value
  | some (.visits a) => .ok (.int (m.visitsTo a))
  | _ =>
      match m.vars.lookup name with
      | some v => .ok v
      | none => .error (.unknownVariable name)

end Memory

end BranchingStory

------------------------------------------------------------
-- Operations On Values
------------------------------------------------------------

namespace BranchingStory

/- Change the sign of a number. -/
def negate : Value → Except EvalError Value
  | .int n => .ok (.int (-n))
  | .float x => .ok (.float (-x))
  | v => .error (.cannotNegate v.kind)

/- Numbers are equal by value, other values within a kind. -/
def valuesEqual
    (left right : Value) : Except EvalError Bool :=
  match left.extended?, right.extended? with
  | some x, some y => .ok (x.compare? y == some .eq)
  | _, _ =>
      if left.kind = right.kind then .ok (left = right)
      else .error (.cannotCompare left.kind right.kind)

/-
  Whether an order of two numbers satisfies a comparison.
  None does if one of them is not a number.
-/
def ordered
    (op : BinaryOp) : Option Ordering → Bool
  | none => false
  | some o =>
      match op with
      | .less => o.isLT
      | .atMost => o.isLE
      | .greater => o.isGT
      | .atLeast => o.isGE
      | _ => false

/-
  The sign of the quotient of two integers.  Zero counts as
  positive.
-/
def quotientSign
    (a b : Int) : Int :=
  if 0 ≤ a ↔ 0 ≤ b then 1 else -1

/-
  The quotient of two integers is that of their sizes, with a
  sign.  This truncates it toward zero.
-/
def truncatedQuotient
    (a b : Int) : Int :=
  (a.natAbs / b.natAbs : Nat) * quotientSign a b

/- What the truncated quotient leaves of the dividend. -/
def truncatedRemainder
    (a b : Int) : Int :=
  a - b * truncatedQuotient a b

/-
  Arithmetic of integers.  The quotient is truncated toward
  zero and the remainder has the sign of the dividend.
-/
def integerArithmetic
    (op : BinaryOp)
    (a b : Int) : Except EvalError Int :=
  match op with
  | .add => .ok (a + b)
  | .subtract => .ok (a - b)
  | .multiply => .ok (a * b)
  | .divide =>
      if b = 0 then .error .integerDivisionByZero
      else .ok (truncatedQuotient a b)
  | _ =>
      if b = 0 then .error .integerDivisionByZero
      else .ok (truncatedRemainder a b)

/- Arithmetic of floats. -/
def floatArithmetic
    (op : BinaryOp)
    (x y : Float) : Except EvalError Float :=
  match op with
  | .add => .ok (x + y)
  | .subtract => .ok (x - y)
  | .multiply => .ok (x * y)
  | .divide =>
      if y == 0 then .error .divisionByZero
      else .ok (x / y)
  | _ =>
      if y == 0 then .error .divisionByZero
      else
        match remainder? x y with
        | some z => .ok z
        | none => .error .remainderOfInfinity

/- The float that stands for a number. -/
def toFloat : Value → Except EvalError Float
  | .int n =>
      match doubleOfInt? n with
      | some x => .ok x
      | none => .error .beyondFloatRange
  | .float x => .ok x
  | _ => .ok 0

/- Arithmetic of two numbers. -/
def arithmetic
    (op : BinaryOp)
    (left right : Value) : Except EvalError Value :=
  match left, right with
  | .int a, .int b =>
      (integerArithmetic op a b).map .int
  | _, _ => do
      let x ← toFloat left
      let y ← toFloat right
      let z ← floatArithmetic op x y
      return .float z

/- An operation on two values, "and" and "or" left out. -/
def applyBinary
    (op : BinaryOp)
    (left right : Value) : Except EvalError Value :=
  match op, left, right with
  | .equal, _, _ =>
      (valuesEqual left right).map .bool
  | .notEqual, _, _ =>
      (valuesEqual left right).map fun b => .bool !b
  | .add, .string s, .string t => .ok (.string (s ++ t))
  | _, _, _ =>
      match left.extended?, right.extended? with
      | some x, some y =>
          if op.isOrdering then
            .ok (.bool (ordered op (x.compare? y)))
          else arithmetic op left right
      | _, _ =>
          .error (.cannotApply op left.kind right.kind)

end BranchingStory

------------------------------------------------------------
-- Evaluation
------------------------------------------------------------

namespace BranchingStory

namespace Expr

/-
  The value of an expression.  The right side of "and" and
  "or" is left alone when the left side settles the outcome.
-/
def eval
    (m : Memory) : Expr → Except EvalError Value
  | .literal v => .ok v
  | .name s _ meaning => m.read s meaning
  | .target _ _ (some a) => .ok (.divert a.path)
  | .target s _ none => .error (.unresolvedTarget s)
  | .unary .not e => do
      let v ← eval m e
      return .bool !v.truthy
  | .unary .negate e => do
      let v ← eval m e
      negate v
  | .binary .and e f => do
      let v ← eval m e
      if v.truthy then
        let w ← eval m f
        return .bool w.truthy
      else return .bool false
  | .binary .or e f => do
      let v ← eval m e
      if v.truthy then return .bool true
      else
        let w ← eval m f
        return .bool w.truthy
  | .binary op e f => do
      let v ← eval m e
      let w ← eval m f
      applyBinary op v w

/- Whether an expression holds. -/
def holds
    (m : Memory)
    (e : Expr) : Except EvalError Bool := do
  let v ← eval m e
  return v.truthy

end Expr

end BranchingStory
