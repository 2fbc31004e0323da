import BranchingStory.Expr.Basic
import BranchingStory.Number.Numeral

/-
  This file splits the text of an expression into tokens.

  Key definitions include:
    * `Symbol`
    * `Token`
    * `Token.text`
    * `SyntaxError`
    * `SyntaxError.message`
    * `takeQuoted`
    * `unescape`
    * `nextToken?`
    * `tokens`
-/

------------------------------------------------------------
-- Tokens
------------------------------------------------------------

namespace BranchingStory

/- The signs of expressions. -/
inductive Symbol where
  | equal
  | notEqual
  | atMost
  | atLeast
  | both
  | either
  | minus
  | plus
  | star
  | slash
  | percent
  | less
  | greater
  | bang
  | openParen
  | closeParen
deriving DecidableEq, Repr

/- The written form of a sign. -/
def Symbol.text : Symbol → String
  | .equal => "=="
  | .notEqual => "!="
  | .atMost => "<="
  | .atLeast => ">="
  | .both => "&&"
  | .either => "||"
  | .minus => "-"
  | .plus => "+"
  | .star => "*"
  | .slash => "/"
  | .percent => "%"
  | .less => "<"
  | .greater => ">"
  | .bang => "!"
  | .openParen => "("
  | .closeParen => ")"

/-
  A token: a number as it is written, the inner part of a
  quoted text with its escapes, an arrow, a sign or a name.
-/
inductive Token where
  | number (digits : String)
  | quoted (body : String)
  | arrow
  | symbol (s : Symbol)
  | name (s : String)
deriving DecidableEq, Repr

/- The written form of a token. -/
def Token.text : Token → String
  | .number s => s
  | .quoted s => "\"" ++ s ++ "\""
  | .arrow => "->"
  | .symbol s => s.text
  | .name s => s

end BranchingStory

------------------------------------------------------------
-- Syntax Errors
------------------------------------------------------------

namespace BranchingStory

/-
  The faults of the text of an expression or a literal.  The
  last one is a number with too many digits.
-/
inductive SyntaxError where
  | empty
  | unexpectedCharacter (text : String)
  | unexpectedToken (text : String)
  | misplacedKeyword (text : String)
  | endedEarly
  | chainedComparison
  | missingParen
  | arrowWithoutName
  | unterminatedQuote (text : String)
  | invalidTarget (text : String)
  | invalidLiteral (text : String)
  | longNumber (digits : Nat)
deriving DecidableEq, Repr

/- The wording of a syntax error. -/
def SyntaxError.message : SyntaxError → String
  | .empty => "empty expression"
  | .unexpectedCharacter s =>
      s!"unexpected character '{s}'"
  | .unexpectedToken s =>
      s!"unexpected '{s}' in expression"
  | .misplacedKeyword s => s!"unexpected '{s}'"
  | .endedEarly => "expression ended unexpectedly"
  | .chainedComparison => "comparisons cannot be chained"
  | .missingParen => "missing ')'"
  | .arrowWithoutName =>
      "'->' must be followed by a knot or stitch name"
  | .unterminatedQuote s =>
      s!"unterminated string literal: {s}"
  | .invalidTarget s => s!"invalid divert target: {s}"
  | .invalidLiteral s => s!"'{s}' is not a valid value"
  | .longNumber digits => longNumeralMessage digits

end BranchingStory

------------------------------------------------------------
-- Quoted Texts
------------------------------------------------------------

namespace BranchingStory

/-
  The inner part of a quoted text up to its closing quote, and
  what follows the quote.  A backslash keeps the character
  after it, which must not be a line feed.
-/
def takeQuoted :
    List Char → Option (List Char × List Char)
  | [] => none
  | '"' :: rest => some ([], rest)
  | ['\\'] => none
  | '\\' :: c :: rest =>
      if c = '\n' then none
      else
        (takeQuoted rest).map fun (body, rest') =>
          ('\\' :: c :: body, rest')
  | c :: rest =>
      (takeQuoted rest).map fun (body, rest') =>
        (c :: body, rest')

/-
  Drop the backslashes that escape a character.  In front of a
  line feed, or at the end, a backslash stands for itself.
-/
def unescape : List Char → List Char
  | [] => []
  | '\\' :: c :: rest =>
      if c = '\n' then '\\' :: c :: unescape rest
      else c :: unescape rest
  | c :: rest => c :: unescape rest

end BranchingStory

------------------------------------------------------------
-- Splitting Into Tokens
------------------------------------------------------------

namespace BranchingStory

/-
  A run of accepted characters at the start of a text that is
  followed by a point and a further run, or by no such run.
-/
def takeDotted
    (accept : Char → Bool)
    (cs : List Char) : List Char × List Char :=
  let first := cs.takeWhile accept
  match cs.dropWhile accept with
  | '.' :: c :: rest =>
      if accept c then
        (first ++ '.' :: (c :: rest).takeWhile accept,
          (c :: rest).dropWhile accept)
      else (first, '.' :: c :: rest)
  | rest => (first, rest)

/- The sign at the start of a text, the longest first. -/
def takeSymbol? :
    List Char → Option (Symbol × List Char)
  | '=' :: '=' :: rest => some (.equal, rest)
  | '!' :: '=' :: rest => some (.notEqual, rest)
  | '<' :: '=' :: rest => some (.atMost, rest)
  | '>' :: '=' :: rest => some (.atLeast, rest)
  | '&' :: '&' :: rest => some (.both, rest)
  | '|' :: '|' :: rest => some (.either, rest)
  | '-' :: rest => some (.minus, rest)
  | '+' :: rest => some (.plus, rest)
  | '*' :: rest => some (.star, rest)
  | '/' :: rest => some (.slash, rest)
  | '%' :: rest => some (.percent, rest)
  | '<' :: rest => some (.less, rest)
  | '>' :: rest => some (.greater, rest)
  | '!' :: rest => some (.bang, rest)
  | '(' :: rest => some (.openParen, rest)
  | ')' :: rest => some (.closeParen, rest)
  | _ => none

/- The token at the start of a text that is not blank. -/
def nextToken? :
    List Char → Option (Token × List Char)
  | [] => none
  | '"' :: rest =>
      (takeQuoted rest).map fun (body, rest') =>
        (.quoted (String.ofList body), rest')
  | '-' :: '>' :: rest => some (.arrow, rest)
  | c :: rest =>
      if isDigit c then
        let (digits, rest') := takeDotted isDigit (c :: rest)
        some (.number (String.ofList digits), rest')
      else if isWordChar c then
        let (name, rest') := takeDotted isWordChar (c :: rest)
        some (.name (String.ofList name), rest')
      else
        (takeSymbol? (c :: rest)).map fun (s, rest') =>
          (.symbol s, rest')

/-
  The tokens of a text, at most as many as the bound, which
  the length of the text makes large enough.
-/
def tokensWithin :
    Nat → List Char → Except SyntaxError (List Token)
  | 0, _ => .ok []
  | n + 1, cs =>
      match trimStart cs with
      | [] => .ok []
      | c :: rest =>
          match nextToken? (c :: rest) with
          | none =>
              .error (.unexpectedCharacter c.toString)
          | some (t, rest') => do
              let ts ← tokensWithin n rest'
              return t :: ts

/- The tokens of a text.  Blanks may stand around them. -/
def tokens
    (cs : List Char) : Except SyntaxError (List Token) :=
  tokensWithin cs.length cs

end BranchingStory
