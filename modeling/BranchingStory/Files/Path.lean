import BranchingStory.Text.Cut

/-
  This file defines the paths of files.  A path has one written
  form: parts that are empty or a single point are left out.

  Key definitions include:
    * `FilePath`
    * `FilePath.ofText`
    * `FilePath.text`
    * `FilePath.join`
    * `FilePath.child`
    * `FilePath.parent`
    * `FilePath.name`
    * `FilePath.stem`
-/

------------------------------------------------------------
-- Paths
------------------------------------------------------------

namespace BranchingStory

/-
  A path: its root, which is empty unless the path is absolute,
  and the names on the way.
-/
structure FilePath where
  root : String
  parts : List String
deriving DecidableEq, Repr

namespace FilePath

/-
  The root of a path with a number of leading slashes.  Two
  slashes stay, more are as good as one.
-/
def rootOf : Nat → String
  | 0 => ""
  | 2 => "//"
  | _ => "/"

/- The path that a text stands for. -/
def ofText
    (s : String) : FilePath :=
  let cs := s.toList
  { root := rootOf (cs.takeWhile (· == '/')).length
    parts :=
      ((splitAtMark '/' cs).map String.ofList).filter
        fun part => part ≠ "" ∧ part ≠ "." }

/- The written form of a path. -/
def text
    (p : FilePath) : String :=
  let s := p.root ++ "/".intercalate p.parts
  if s.isEmpty then "." else s

/- A path that goes on from another unless it is absolute. -/
def join
    (p q : FilePath) : FilePath :=
  if q.root.isEmpty then ⟨p.root, p.parts ++ q.parts⟩ else q

/- The path from another one that a text describes. -/
def child
    (p : FilePath)
    (s : String) : FilePath :=
  p.join (ofText s)

/- The path without its last name. -/
def parent
    (p : FilePath) : FilePath :=
  ⟨p.root, p.parts.dropLast⟩

/- The last name of a path, or nothing. -/
def name
    (p : FilePath) : String :=
  p.parts.getLastD ""

/-
  The last name of a path without its suffix.  A point at the
  start or the end of a name begins no suffix.
-/
def stem
    (p : FilePath) : String :=
  let cs := p.name.toList
  let base := (cs.reverse.dropWhile (· != '.')).reverse.dropLast
  if base.isEmpty || cs.getLast? == some '.' then p.name
  else String.ofList base

end FilePath

end BranchingStory
