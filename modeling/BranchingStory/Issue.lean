import BranchingStory.Expr.Token

/-
  This file defines what can be wrong with a script.  An issue
  is a cause together with a line; its severity, its code and
  its wording follow from the cause.

  Key definitions include:
    * `Severity`
    * `TypeFault`
    * `Cause`
    * `Cause.severity`
    * `Cause.code`
    * `Cause.message`
    * `Cause.context`
    * `Issue`
    * `Issue.text`
    * `IssueLog`
    * `IssueLog.entries`
-/

------------------------------------------------------------
-- Causes
------------------------------------------------------------

namespace BranchingStory

/- Errors make a script unreadable; the others do not. -/
inductive Severity where
  | error
  | warning
  | todo
deriving DecidableEq, Repr

/- The written form of a severity. -/
def Severity.text : Severity → String
  | .error => "ERROR"
  | .warning => "WARNING"
  | .todo => "TODO"

/- The ways in which values and operations do not fit. -/
inductive TypeFault where
  | assigned (name : String) (declared got : Kind)
  | condition (got : Kind)
  | negated (got : Kind)
  | notOperand (got : Kind)
  | operands (op : BinaryOp) (left right : Kind)
deriving DecidableEq, Repr

/- The wording of a type fault. -/
def TypeFault.message : TypeFault → String
  | .assigned n declared got =>
      s!"'{n}' holds {declared.name} values, " ++
        s!"got {got.name}"
  | .condition k =>
      s!"a condition cannot test a {k.name} value"
  | .negated k => s!"cannot negate a {k.name} value"
  | .notOperand k =>
      s!"'not' cannot apply to a {k.name} value"
  | .operands op l r =>
      s!"cannot apply '{op.symbol}' to {l.name} and " ++
        s!"{r.name} values"

/- The causes of issues. -/
inductive Cause where
  | threads
  | functions
  | unsupportedKeyword (keyword : String)
  | secondDivert
  | invalidHeader (kind name : String)
  | mixedMarkers
  | invalidTarget (target : String)
  | missingTarget
  | emptyChoiceDivert
  | unclosedCondition
  | strayBrace
  | unclosedBrace
  | bracketMismatch
  | emptyBraces
  | multipleElse
  | invalidExpression (fault : SyntaxError) (text : String)
  | declarationForm
  | invalidVariableName (name : String)
  | invalidLiteral (fault : SyntaxError) (name : String)
  | assignmentForm
  | lateDeclaration
  | duplicateVariable (name : String) (first : Nat)
  | duplicateKnot (knot : String) (first : Nat)
  | emptyKnot (knot : String)
  | emptyStitch (knot stitch : String)
  | stitchWithoutKnot (stitch : String)
  | duplicateStitch (knot stitch : String)
  | inconsistentDepth (depth innermost : Nat)
  | emptyStory
  | nameShadowsKnot (name : String)
  | unknownAddress (target : String)
  | multipleFallbacks
  | fragileFallback
  | unknownVariable (name : String)
  | assignToConstant (name : String)
  | typeMismatch (fault : TypeFault)
  | unknownName (name : String)
  | todo (note : String)
deriving DecidableEq, Repr

end BranchingStory

------------------------------------------------------------
-- Wording
------------------------------------------------------------

namespace BranchingStory

namespace Cause

/- How grave a cause is. -/
def severity : Cause → Severity
  | .todo _ => .todo
  | .nameShadowsKnot _ => .warning
  | .fragileFallback => .warning
  | _ => .error

/- The code that a cause is filed under. -/
def code : Cause → String
  | .threads => "UNSUPPORTED_FEATURE"
  | .functions => "UNSUPPORTED_FEATURE"
  | .unsupportedKeyword _ => "UNSUPPORTED_FEATURE"
  | .secondDivert => "UNSUPPORTED_FEATURE"
  | .invalidHeader _ _ => "INVALID_NAME"
  | .mixedMarkers => "STICKY_AND_NON_STICKY"
  | .invalidTarget _ => "INVALID_ADDRESS"
  | .missingTarget => "EMPTY_DIVERT"
  | .emptyChoiceDivert => "EMPTY_DIVERT"
  | .unclosedCondition => "UNMATCHED_BRACES"
  | .strayBrace => "UNMATCHED_BRACES"
  | .unclosedBrace => "UNMATCHED_BRACES"
  | .bracketMismatch => "BRACKET_MISMATCH"
  | .emptyBraces => "EMPTY_EXPRESSION"
  | .multipleElse => "MULTIPLE_ELSE"
  | .invalidExpression _ _ => "INVALID_EXPRESSION"
  | .declarationForm => "INVALID_DECLARATION"
  | .invalidVariableName _ => "INVALID_NAME"
  | .invalidLiteral _ _ => "INVALID_DECLARATION"
  | .assignmentForm => "INVALID_ASSIGNMENT"
  | .lateDeclaration => "VARIABLE_OUTSIDE_PREAMBLE"
  | .duplicateVariable _ _ => "DUPLICATE_VARIABLE"
  | .duplicateKnot _ _ => "DUPLICATE_KNOT"
  | .emptyKnot _ => "EMPTY_KNOT"
  | .emptyStitch _ _ => "EMPTY_STITCH"
  | .stitchWithoutKnot _ => "STITCH_WITHOUT_KNOT"
  | .duplicateStitch _ _ => "DUPLICATE_STITCH"
  | .inconsistentDepth _ _ => "INCONSISTENT_DEPTH"
  | .emptyStory => "EMPTY_STORY"
  | .nameShadowsKnot _ => "NAME_SHADOWS_KNOT"
  | .unknownAddress _ => "UNKNOWN_ADDRESS"
  | .multipleFallbacks => "MULTIPLE_FALLBACKS"
  | .fragileFallback => "FRAGILE_FALLBACK"
  | .unknownVariable _ => "UNKNOWN_VARIABLE"
  | .assignToConstant _ => "ASSIGN_TO_CONSTANT"
  | .typeMismatch _ => "TYPE_MISMATCH"
  | .unknownName _ => "UNKNOWN_NAME"
  | .todo _ => "TODO"

/- The sentence that explains a cause. -/
def message : Cause → String
  | .threads => "Threads ('<-') are not supported."
  | .functions => "Functions are not supported."
  | .unsupportedKeyword k =>
      s!"'{k}' statements are not supported."
  | .secondDivert =>
      "Only one divert is allowed per line; " ++
        "tunnels are not supported."
  | .invalidHeader kind n =>
      s!"'{n}' is not a valid {kind} name; " ++
        "use letters, digits and underscores."
  | .mixedMarkers =>
      "A choice cannot mix '*' and '+' markers."
  | .invalidTarget t =>
      s!"'{t}' is not a valid divert target."
  | .missingTarget => "Divert is missing a target."
  | .emptyChoiceDivert =>
      "Only fallback choices may use an empty divert."
  | .unclosedCondition =>
      "Choice condition is missing a '\x7d'."
  | .strayBrace =>
      "Found '\x7d' without a matching '\x7b'."
  | .unclosedBrace =>
      "Found '\x7b' without a matching '\x7d'."
  | .bracketMismatch =>
      "Choice text may contain at most one matched " ++
        "'[...]' pair."
  | .emptyBraces =>
      "Found an empty '\x7b\x7d' expression."
  | .multipleElse =>
      "Conditional text can have at most one '|' " ++
        "separating its else branch."
  | .invalidExpression fault _ => fault.message
  | .declarationForm =>
      "Declarations need the form 'VAR name = value'."
  | .invalidVariableName n =>
      s!"'{n}' is not a valid variable name."
  | .invalidLiteral fault _ => fault.message
  | .assignmentForm =>
      "Assignments need the form '~ name = expression'."
  | .lateDeclaration =>
      "Variables and constants must be declared before " ++
        "the first knot."
  | .duplicateVariable n l =>
      s!"'{n}' is already declared on line {l}."
  | .duplicateKnot n l =>
      s!"Knot '{n}' is already defined on line {l}."
  | .emptyKnot n => s!"Knot '{n}' has no content."
  | .emptyStitch k s =>
      s!"Stitch '{s}' in knot '{k}' has no content."
  | .stitchWithoutKnot s =>
      s!"Stitch '{s}' must be inside a knot."
  | .duplicateStitch k s =>
      s!"Stitch '{s}' is already defined in knot '{k}'."
  | .inconsistentDepth d i =>
      s!"Depth {d} follows depth {i}; nesting may only " ++
        "grow one level at a time."
  | .emptyStory => "The script has no story content."
  | .nameShadowsKnot n =>
      s!"Variable '{n}' shares its name with a knot; " ++
        "bare references read the variable."
  | .unknownAddress t =>
      s!"Divert target '{t}' does not match any knot or " ++
        "stitch."
  | .multipleFallbacks =>
      "A choice set can have at most one fallback choice."
  | .fragileFallback =>
      "Non-sticky fallback choice can only be taken " ++
        "once; reaching this choice set again raises " ++
        "OutOfChoicesError."
  | .unknownVariable n =>
      s!"Cannot assign to undeclared variable '{n}'."
  | .assignToConstant n =>
      s!"'{n}' is a constant and cannot be assigned."
  | .typeMismatch fault => fault.message
  | .unknownName n =>
      s!"'{n}' is neither a variable nor a knot or stitch."
  | .todo note => note

/- The named texts that an issue is about. -/
def context : Cause → List (String × String)
  | .unsupportedKeyword k => [("keyword", k)]
  | .invalidHeader _ n => [("name", n)]
  | .invalidTarget t => [("target", t)]
  | .invalidExpression _ text => [("expression", text)]
  | .invalidVariableName n => [("name", n)]
  | .invalidLiteral _ n => [("name", n)]
  | .duplicateVariable n _ => [("name", n)]
  | .duplicateKnot n _ => [("knot", n)]
  | .emptyKnot n => [("knot", n)]
  | .emptyStitch k s => [("knot", k), ("stitch", s)]
  | .stitchWithoutKnot s => [("stitch", s)]
  | .duplicateStitch k s => [("knot", k), ("stitch", s)]
  | .nameShadowsKnot n => [("name", n)]
  | .unknownAddress t => [("target", t)]
  | .unknownVariable n => [("name", n)]
  | .assignToConstant n => [("name", n)]
  | .unknownName n => [("name", n)]
  | _ => []

end Cause

end BranchingStory

------------------------------------------------------------
-- Issues
------------------------------------------------------------

namespace BranchingStory

/- A cause and the line that it is reported on. -/
structure Issue where
  cause : Cause
  line : Nat
deriving DecidableEq, Repr

namespace Issue

/- Whether an issue is an error. -/
def isError
    (i : Issue) : Bool :=
  i.cause.severity = .error

/- The written form of the context of an issue. -/
def contextText
    (i : Issue) : String :=
  match i.cause.context with
  | [] => ""
  | pairs =>
      let parts := pairs.map fun p => p.1 ++ "=" ++ p.2
      " (" ++ " ".intercalate parts ++ ")"

/- The written form of an issue. -/
def text
    (i : Issue) : String :=
  let c := i.cause
  s!"[{c.severity.text}] line {i.line}: {c.code}: " ++
    c.message ++ i.contextText

end Issue

end BranchingStory

------------------------------------------------------------
-- The Log
------------------------------------------------------------

namespace BranchingStory

/- The notes about a script that do not make it unreadable. -/
structure IssueLog where
  todos : List Issue
  warnings : List Issue
deriving DecidableEq, Repr, Inhabited

namespace IssueLog

/- The notes among all issues of a script. -/
def ofIssues
    (is : List Issue) : IssueLog :=
  { todos := is.filter fun i => i.cause.severity = .todo
    warnings :=
      is.filter fun i => i.cause.severity = .warning }

/-
  All notes by line.  On one line the reminders of the author
  come first, and each kind keeps its order.
-/
def entries
    (log : IssueLog) : List Issue :=
  (log.todos ++ log.warnings).mergeSort
    fun i j => i.line ≤ j.line

/- Whether there are any notes. -/
def hasEntries
    (log : IssueLog) : Bool :=
  !log.todos.isEmpty || !log.warnings.isEmpty

end IssueLog

end BranchingStory
