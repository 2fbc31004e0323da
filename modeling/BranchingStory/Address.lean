import BranchingStory.Text.Cut

/-
  This file defines the names and addresses of the places of a
  story.  A story is divided into knots, and a knot into
  stitches.

  Key definitions include:
    * `rootName`
    * `isName`
    * `Address`
    * `Address.path`
    * `Address.ofPath`
    * `isAddressText`
-/

------------------------------------------------------------
-- Names
------------------------------------------------------------

namespace BranchingStory

/-
  The name of the knot that text before the first knot header
  belongs to, and of the stitch that text before the first
  stitch header of a knot belongs to.
-/
def rootName : String :=
  "$ROOT$"

/- A name is a run of word characters, and not empty. -/
def isName
    (cs : List Char) : Bool :=
  !cs.isEmpty && cs.all isWordChar

/- The targets that end the story. -/
def isFinishName
    (s : String) : Bool :=
  s == "END" || s == "DONE"

end BranchingStory

------------------------------------------------------------
-- Addresses
------------------------------------------------------------

namespace BranchingStory

/- A place of the story: a stitch of a knot. -/
structure Address where
  knot : String
  stitch : String
deriving DecidableEq, Repr, Inhabited

namespace Address

/- The root stitch of a knot. -/
def root
    (knot : String) : Address :=
  ⟨knot, rootName⟩

/- Whether the address is that of a root stitch. -/
def isRoot
    (a : Address) : Bool :=
  a.stitch == rootName

/-
  The written form of an address: the name of the knot, and
  after a point that of the stitch unless it is the root.
-/
def path
    (a : Address) : String :=
  if a.isRoot then a.knot
  else a.knot ++ "." ++ a.stitch

/-
  The address that a path stands for.  The first point parts
  knot and stitch; no stitch means the root.
-/
def ofPath
    (s : String) : Address :=
  match breakAt '.' s.toList with
  | (_, none) => .root s
  | (knot, some []) => .root (String.ofList knot)
  | (knot, some stitch) =>
      ⟨String.ofList knot, String.ofList stitch⟩

end Address

/-
  The texts that may stand for an address: one name, or two
  with a point in between.
-/
def isAddressText
    (cs : List Char) : Bool :=
  match breakAt '.' cs with
  | (knot, none) => isName knot
  | (knot, some stitch) => isName knot && isName stitch

end BranchingStory
