import BranchingStory.Value
import BranchingStory.Address

/-
  This file defines the expressions of conditions, insertions
  and assignments.

  Key definitions include:
    * `UnaryOp`
    * `BinaryOp`
    * `BinaryOp.symbol`
    * `Meaning`
    * `Expr`
-/

------------------------------------------------------------
-- Operators
------------------------------------------------------------

namespace BranchingStory

/- The operators with one operand. -/
inductive UnaryOp where
  | not
  | negate
deriving DecidableEq, Repr

/- The operators with two operands. -/
inductive BinaryOp where
  | or
  | and
  | equal
  | notEqual
  | less
  | atMost
  | greater
  | atLeast
  | add
  | subtract
  | multiply
  | divide
  | modulo
deriving DecidableEq, Repr

/- The written form of an operator with one operand. -/
def UnaryOp.symbol : UnaryOp → String
  | .not => "not"
  | .negate => "-"

namespace BinaryOp

/- The written form of an operator with two operands. -/
def symbol : BinaryOp → String
  | .or => "or"
  | .and => "and"
  | .equal => "=="
  | .notEqual => "!="
  | .less => "<"
  | .atMost => "<="
  | .greater => ">"
  | .atLeast => ">="
  | .add => "+"
  | .subtract => "-"
  | .multiply => "*"
  | .divide => "/"
  | .modulo => "%"

/- The operators that test the truth of their operands. -/
def isLogical : BinaryOp → Bool
  | .or | .and => true
  | _ => false

/- The operators that compare for equality. -/
def isEquality : BinaryOp → Bool
  | .equal | .notEqual => true
  | _ => false

/- The operators that compare by size. -/
def isOrdering : BinaryOp → Bool
  | .less | .atMost | .greater | .atLeast => true
  | _ => false

end BinaryOp

end BranchingStory

------------------------------------------------------------
-- Expressions
------------------------------------------------------------

namespace BranchingStory

/-
  What a name in an expression stands for: a variable, or the
  number of visits to a place of the story.
-/
inductive Meaning where
  | variable
  | visits (place : Address)
deriving DecidableEq, Repr

/-
  An expression.  Names and divert targets keep the line that
  they stand on; what they mean is known once the whole story
  has been read.
-/
inductive Expr where
  | literal (value : Value)
  | name (name : String) (line : Nat)
      (meaning : Option Meaning)
  | target (path : String) (line : Nat)
      (place : Option Address)
  | unary (op : UnaryOp) (operand : Expr)
  | binary (op : BinaryOp) (left right : Expr)
deriving DecidableEq, Repr, Inhabited

end BranchingStory
