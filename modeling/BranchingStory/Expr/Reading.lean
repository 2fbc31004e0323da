import BranchingStory.Expr.Literal

/-
  This file reads expressions from their tokens, the weakest
  operators first:

    or  <  and  <  not  <  one comparison  <  + -  <  * / %
      <  the negative sign  <  primary expressions.

  Operators of one level associate to the left, and
  comparisons do not chain.  A primary expression is a number,
  a quoted text, a truth value, a divert target after an
  arrow, a name or an expression in parentheses.

  Key definitions include:
    * `TokenReader`
    * `readChain`
    * `readPrimary`
    * `readNested`
    * `Expr.ofTokens`
    * `Expr.ofText`
-/

------------------------------------------------------------
-- Levels Of Operators
------------------------------------------------------------

namespace BranchingStory

/-
  A reader takes an expression from the front of a list of
  tokens and leaves the rest.
-/
abbrev TokenReader :=
  List Token → Except SyntaxError (Expr × List Token)

/- The weakest operator: "or" in either spelling. -/
def orOperator? : Token → Option BinaryOp
  | .symbol .either => some .or
  | .name s => if lowerWord s = "or" then some .or else none
  | _ => none

/- The operator "and" in either spelling. -/
def andOperator? : Token → Option BinaryOp
  | .symbol .both => some .and
  | .name s =>
      if lowerWord s = "and" then some .and else none
  | _ => none

/- The operator "not" in either spelling. -/
def isNotOperator : Token → Bool
  | .symbol .bang => true
  | .name s => lowerWord s = "not"
  | _ => false

/- The comparisons. -/
def comparison? : Token → Option BinaryOp
  | .symbol .equal => some .equal
  | .symbol .notEqual => some .notEqual
  | .symbol .less => some .less
  | .symbol .atMost => some .atMost
  | .symbol .greater => some .greater
  | .symbol .atLeast => some .atLeast
  | _ => none

/- The operators of sums. -/
def sumOperator? : Token → Option BinaryOp
  | .symbol .plus => some .add
  | .symbol .minus => some .subtract
  | _ => none

/- The operators of products. -/
def productOperator? : Token → Option BinaryOp
  | .symbol .star => some .multiply
  | .symbol .slash => some .divide
  | .symbol .percent => some .modulo
  | _ => none

/-
  Extend an expression by the operators of one level and their
  right operands, from left to right, up to a bound on their
  number.
-/
def extendChain
    (operator? : Token → Option BinaryOp)
    (operand : TokenReader) :
    Nat → Expr → TokenReader
  | 0, left, ts => .ok (left, ts)
  | _ + 1, left, [] => .ok (left, [])
  | n + 1, left, t :: ts =>
      match operator? t with
      | none => .ok (left, t :: ts)
      | some op => do
          let (right, rest) ← operand ts
          extendChain operator? operand n
            (.binary op left right) rest

/- A chain of operands joined by operators of one level. -/
def readChain
    (operator? : Token → Option BinaryOp)
    (operand : TokenReader) : TokenReader :=
  fun ts => do
    let (left, rest) ← operand ts
    extendChain operator? operand rest.length left rest

/- An operand after any number of negative signs. -/
def readNegated
    (operand : TokenReader) : TokenReader
  | .symbol .minus :: ts => do
      let (e, rest) ← readNegated operand ts
      return (.unary .negate e, rest)
  | ts => operand ts

/- An operand after any number of "not". -/
def readNot
    (operand : TokenReader) : TokenReader
  | [] => operand []
  | t :: ts =>
      if isNotOperator t then do
        let (e, rest) ← readNot operand ts
        return (.unary .not e, rest)
      else operand (t :: ts)

/- Whether a comparison comes next. -/
def startsWithComparison : List Token → Bool
  | [] => false
  | t :: _ => (comparison? t).isSome

/- One operand, or two that are compared. -/
def readComparison
    (operand : TokenReader) : TokenReader :=
  fun ts => do
    let (left, rest) ← operand ts
    match rest with
    | [] => return (left, [])
    | t :: ts' =>
        match comparison? t with
        | none => return (left, t :: ts')
        | some op => do
            let (right, rest') ← operand ts'
            if startsWithComparison rest' then
              throw .chainedComparison
            else return (.binary op left right, rest')

/- Sums, given the reader of primary expressions. -/
def readSum
    (primary : TokenReader) : TokenReader :=
  readChain sumOperator?
    (readChain productOperator? (readNegated primary))

/- All levels, given the reader of primary expressions. -/
def readLevels
    (primary : TokenReader) : TokenReader :=
  readChain orOperator?
    (readChain andOperator?
      (readNot (readComparison (readSum primary))))

end BranchingStory

------------------------------------------------------------
-- Primary Expressions
------------------------------------------------------------

namespace BranchingStory

/-
  The value of a number token.  A token is made of digits, so
  that its length is all that can be wrong with it.
-/
def numberValue
    (s : String) : Except SyntaxError Value :=
  let cs := s.toList
  if cs.contains '.' then
    .ok (.float ((readDouble? cs).getD 0))
  else
    match readInt cs with
    | .ok n => .ok (.int n)
    | .error (.tooLong digits) => .error (.longNumber digits)
    | .error .malformed => .error (.invalidLiteral s)

/- A word that is an operator and cannot be a name. -/
def isKeyword
    (s : String) : Bool :=
  let w := lowerWord s
  w = "and" || w = "or" || w = "not"

/- A name: a truth value or a reference, but no operator. -/
def readName
    (line : Nat)
    (s : String) : Except SyntaxError Expr :=
  match boolOfWord? s with
  | some b => .ok (.literal (.bool b))
  | none =>
      if isKeyword s then .error (.misplacedKeyword s)
      else .ok (.name s line none)

/-
  A primary expression, given the reader of what stands in
  parentheses.
-/
def readPrimary
    (line : Nat)
    (inner : TokenReader) : TokenReader
  | [] => .error .endedEarly
  | .number s :: ts => do
      let v ← numberValue s
      return (.literal v, ts)
  | .quoted s :: ts =>
      .ok (.literal (.string
        (String.ofList (unescape s.toList))), ts)
  | .arrow :: [] => .error .endedEarly
  | .arrow :: .name s :: ts => .ok (.target s line none, ts)
  | .arrow :: _ :: _ => .error .arrowWithoutName
  | .symbol .openParen :: ts => do
      let (e, rest) ← inner ts
      match rest with
      | .symbol .closeParen :: rest' => return (e, rest')
      | _ => throw .missingParen
  | .name s :: ts => do
      let e ← readName line s
      return (e, ts)
  | t :: _ => .error (.unexpectedToken t.text)

end BranchingStory

------------------------------------------------------------
-- Whole Expressions
------------------------------------------------------------

namespace BranchingStory

/-
  Read an expression whose parentheses are nested less deep
  than the bound.  At depth zero only the empty list is left
  to read, as every level of nesting uses up a token.
-/
def readNested
    (line : Nat) : Nat → TokenReader
  | 0 => fun _ => .error .endedEarly
  | n + 1 =>
      readLevels (readPrimary line (readNested line n))

namespace Expr

/- The expression that a list of tokens spells out. -/
def ofTokens
    (line : Nat)
    (ts : List Token) : Except SyntaxError Expr :=
  match ts with
  | [] => .error .empty
  | _ => do
      let (e, rest) ← readNested line (ts.length + 1) ts
      match rest with
      | [] => return e
      | t :: _ => throw (.unexpectedToken t.text)

/- The expression that a text on a given line spells out. -/
def ofText
    (line : Nat)
    (cs : List Char) : Except SyntaxError Expr := do
  let ts ← tokens cs
  ofTokens line ts

end Expr

end BranchingStory
