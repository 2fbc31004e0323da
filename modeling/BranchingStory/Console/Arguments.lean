import BranchingStory.Number.Numeral
import BranchingStory.Text.Cut

/-
  This file reads the arguments of the command line: at most
  one script, and options that can be abbreviated.

  Key definitions include:
    * `Flag`
    * `Argument`
    * `Argument.ofText?`
    * `Arguments`
    * `Request`
    * `Request.ofArguments`
    * `helpText`
-/

------------------------------------------------------------
-- Options
------------------------------------------------------------

namespace BranchingStory

/- The options. -/
inductive Flag where
  | help
  | seed
  | logLevel
deriving DecidableEq, Repr

namespace Flag

/- The long names of the options. -/
def longNames : List (String × Flag) :=
  [("--help", .help), ("--seed", .seed),
    ("--log-level", .logLevel)]

/- The option of exactly a given long name. -/
def named?
    (s : String) : Option Flag :=
  (longNames.find? fun n => n.1 = s).map Prod.snd

/- The options whose long names begin with a text. -/
def candidates
    (s : String) : List Flag :=
  (longNames.filter fun n => s.isPrefixOf n.1).map Prod.snd

end Flag

/- The values that the option for the log level can have. -/
def logLevels : List String :=
  ["DEBUG", "INFO", "WARNING", "ERROR"]

end BranchingStory

------------------------------------------------------------
-- Single Arguments
------------------------------------------------------------

namespace BranchingStory

/-
  An argument: one that is no option, an option that may hold
  its value, the marker that ends the options, or something
  that is not known.
-/
inductive Argument where
  | positional (s : String)
  | option (f : Flag) (value : Option String)
  | marker
  | unknown
deriving DecidableEq, Repr

/-
  Whether a text after a minus sign is a number in digits,
  maybe with a point.  A line feed may end it.
-/
def isPlainNumber
    (cs : List Char) : Bool :=
  let cs := if cs.getLast? = some '\n' then cs.dropLast else cs
  match breakAt '.' cs with
  | (whole, none) => !whole.isEmpty && whole.all isDigit
  | (whole, some decimals) =>
      whole.all isDigit && !decimals.isEmpty &&
        decimals.all isDigit

/-
  An argument that begins with a minus sign but names no
  option.  Numbers and texts with spaces are no options.
-/
def Argument.ofOther
    (s : String) : Argument :=
  let cs := s.toList
  if isPlainNumber (cs.drop 1) || cs.contains ' ' then
    .positional s
  else .unknown

/-
  An argument that begins with two minus signs.  It is no
  argument at all if several options fit it.
-/
def Argument.ofLong?
    (s : String) : Option Argument :=
  let (before, after) := breakAt '=' s.toList
  let name := String.ofList before
  let value := after.map String.ofList
  match Flag.named? name with
  | some f => some (.option f value)
  | none =>
      match Flag.candidates name with
      | [] => some (.ofOther s)
      | [f] => some (.option f value)
      | _ => none

/- An argument before the marker, unless it is ambiguous. -/
def Argument.ofText?
    (s : String) : Option Argument :=
  match s.toList with
  | '-' :: '-' :: _ => Argument.ofLong? s
  | '-' :: 'h' :: rest =>
      if rest.all (· == 'h') then some (.option .help none)
      else some (.option .help (some (String.ofList rest)))
  | '-' :: _ :: _ => some (.ofOther s)
  | _ => some (.positional s)

/- All arguments.  After the marker there are no options. -/
def Argument.ofTexts? :
    List String → Option (List Argument)
  | [] => some []
  | s :: rest =>
      if s = "--" then
        some (.marker :: rest.map Argument.positional)
      else do
        let a ← Argument.ofText? s
        let as ← Argument.ofTexts? rest
        return a :: as

end BranchingStory

------------------------------------------------------------
-- Requests
------------------------------------------------------------

namespace BranchingStory

/- What the arguments say: the script and the seed. -/
structure Arguments where
  script : Option String
  seed : Option Int
deriving DecidableEq, Repr

/- What the command line asks for, if it makes sense. -/
inductive Request where
  | play (as : Arguments)
  | help
  | misuse
deriving DecidableEq, Repr

/- Take the value of an option, if it is valid. -/
def Arguments.set?
    (as : Arguments)
    (value : String) : Flag → Option Arguments
  | .help => none
  | .seed =>
      (readInt? value.toList).map
        fun n => { as with seed := some n }
  | .logLevel =>
      if logLevels.contains value then some as else none

/-
  Go through arguments from left to right, knowing whether the
  script may still come and whether there was too much.  The
  marker belongs to the argument beside it.
-/
def Request.ofRest
    (as : Arguments)
    (awaited surplus : Bool) : List Argument → Request
  | [] => if surplus then .misuse else .play as
  | .option .help none :: _ => .help
  | .option f (some value) :: rest =>
      match as.set? value f with
      | some as => ofRest as awaited surplus rest
      | none => .misuse
  | .option f none :: .positional value :: rest =>
      match as.set? value f with
      | some as => ofRest as awaited surplus rest
      | none => .misuse
  | .option _ none :: _ => .misuse
  | .unknown :: rest => ofRest as awaited true rest
  | .positional s :: .marker :: rest =>
      if awaited then
        ofRest { as with script := some s } false surplus rest
      else .misuse
  | .positional s :: rest =>
      if awaited then
        ofRest { as with script := some s } false surplus rest
      else ofRest as awaited true rest
  | .marker :: .positional s :: rest =>
      if awaited then
        ofRest { as with script := some s } false surplus rest
      else .misuse
  | .marker :: rest =>
      if awaited then ofRest as false surplus rest else .misuse

/- What a list of arguments asks for. -/
def Request.ofArguments
    (texts : List String) : Request :=
  match Argument.ofTexts? texts with
  | none => .misuse
  | some as => .ofRest ⟨none, none⟩ true false as

end BranchingStory

------------------------------------------------------------
-- Help
------------------------------------------------------------

namespace BranchingStory

/- The description of the command line. -/
def helpText : String :=
  "\n".intercalate
    ["usage: storyloom [-h] [--seed SEED] " ++
        "[--log-level \x7bDEBUG,INFO,WARNING,ERROR\x7d]",
      "                 [script]",
      "",
      "Play an interactive story script.",
      "",
      "positional arguments:",
      "  script                path to a story script " ++
        "(defaults to a bundled story)",
      "",
      "options:",
      "  -h, --help            show this help message and exit",
      "  --seed SEED           seed for shuffled text",
      "  --log-level \x7bDEBUG,INFO,WARNING,ERROR\x7d",
      "                        logging verbosity",
      ""]

end BranchingStory
