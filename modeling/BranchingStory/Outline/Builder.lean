import BranchingStory.Markup.Lines
import BranchingStory.Outline.Basic
import BranchingStory.Script.Line

/-
  This file builds the outline of a story from its logical
  lines.

  The content that is being written is kept as a spine: the
  innermost block that takes further content, and around it,
  from the inside out, the sets of choices that are still
  open.  The depth of the spine is the depth of the innermost
  block.

  Key definitions include:
    * `Rung`
    * `Spine`
    * `Spine.closeTo`
    * `Spine.append`
    * `Spine.addChoice`
    * `OpenKnot`
    * `Builder`
    * `Builder.add`
    * `buildOutline`
-/

------------------------------------------------------------
-- The Spine
------------------------------------------------------------

namespace BranchingStory

/-
  A set of choices whose last branch is still being written,
  and the content of the enclosing block ahead of the set.
-/
structure Rung where
  before : List Item
  id : Nat
  line : Nat
  closed : List Branch
  branchId : Nat
  outputId : Nat
  choice : Choice

/-
  The content of a stitch while it is being written: the open
  sets of choices, the innermost first, and the content of the
  innermost block so far.
-/
structure Spine where
  rungs : List Rung
  items : List Item

namespace Rung

/- The last branch of a set, with its content at this time. -/
def branch
    (r : Rung)
    (depth : Nat)
    (items : List Item) : Branch :=
  .mk r.branchId r.outputId depth r.choice items

/- The enclosing block with the whole set at its end. -/
def close
    (r : Rung)
    (depth : Nat)
    (items : List Item) : List Item :=
  r.before ++
    [.choices r.id depth r.line
      (r.closed ++ [r.branch depth items])]

end Rung

namespace Spine

/- A spine without content. -/
def empty : Spine :=
  ⟨[], []⟩

/- The depth of the innermost block. -/
def depth
    (s : Spine) : Nat :=
  s.rungs.length

/- Close the innermost sets until a depth is reached. -/
def closeRungs
    (depth : Nat) : List Rung → List Item → Spine
  | [], items => ⟨[], items⟩
  | r :: rs, items =>
      if rs.length + 1 ≤ depth then ⟨r :: rs, items⟩
      else
        closeRungs depth rs (r.close (rs.length + 1) items)

/- Close all sets that are deeper than a depth. -/
def closeTo
    (depth : Nat)
    (s : Spine) : Spine :=
  closeRungs depth s.rungs s.items

/- The content of the stitch, with every set closed. -/
def finish
    (s : Spine) : List Item :=
  (s.closeTo 0).items

/- Put a part at the end of the innermost block. -/
def append
    (i : Item)
    (s : Spine) : Spine :=
  { s with items := s.items ++ [i] }

/-
  Begin a branch in a set of choices of its own, inside the
  innermost block.
-/
def openSet
    (setId line branchId outputId : Nat)
    (c : Choice)
    (s : Spine) : Spine :=
  { rungs :=
      { before := s.items
        id := setId
        line := line
        closed := []
        branchId := branchId
        outputId := outputId
        choice := c } :: s.rungs
    items := [] }

/- Begin a further branch in the innermost set. -/
def nextBranch
    (branchId outputId : Nat)
    (c : Choice)
    (s : Spine) : Spine :=
  match s.rungs with
  | [] => s
  | r :: rs =>
      { rungs :=
          { r with
            closed :=
              r.closed ++ [r.branch (rs.length + 1) s.items]
            branchId := branchId
            outputId := outputId
            choice := c } :: rs
        items := [] }

end Spine

end BranchingStory

------------------------------------------------------------
-- The Builder
------------------------------------------------------------

namespace BranchingStory

/-
  The content being written.  It has no name if the header
  above it repeats the name of a stitch.
-/
structure OpenBody where
  name : Option String
  line : Nat
  id : Nat
  spine : Spine

/-
  The knot being written: the stitches and the nameless
  content that are finished, and the content at hand.
-/
structure OpenKnot where
  name : String
  line : Nat
  repeated : Bool
  stitches : Table String Stitch
  detached : List Body
  tags : List String
  current : Option OpenBody

namespace OpenKnot

/- A knot that nothing has been written to. -/
def empty
    (name : String)
    (line : Nat)
    (repeated : Bool) : OpenKnot :=
  { name := name
    line := line
    repeated := repeated
    stitches := .empty
    detached := []
    tags := []
    current := none }

/- Finish the content at hand. -/
def closeBody
    (k : OpenKnot) : OpenKnot :=
  match k.current with
  | none => k
  | some b =>
      let body : Body := ⟨b.id, b.spine.finish⟩
      match b.name with
      | some name =>
          { k with
            stitches :=
              k.stitches.insert name ⟨name, b.line, body⟩
            current := none }
      | none =>
          { k with
            detached := k.detached ++ [body]
            current := none }

/- Begin new content. -/
def openBody
    (name : Option String)
    (line id : Nat)
    (k : OpenKnot) : OpenKnot :=
  { k.closeBody with
    current := some ⟨name, line, id, .empty⟩ }

/- The knot of a knot whose content is finished. -/
def toKnot
    (k : OpenKnot) : Knot :=
  ⟨k.name, k.line, k.stitches, k.tags⟩

/- Whether a stitch has been begun under a name. -/
def hasStitch
    (k : OpenKnot)
    (name : String) : Bool :=
  k.closeBody.stitches.contains name

end OpenKnot

/-
  What has been built so far.  Tags wait for the next line
  that can carry them, or belong to the knot as long as it has
  no content.
-/
structure Builder where
  nextId : Nat
  knots : Table String Knot
  detached : List Body
  vars : Table String Declaration
  tags : List String
  knot : Option OpenKnot
  waitingTags : List String
  headerSeen : Bool
  tagsToKnot : Bool

namespace Builder

/- Nothing built yet. -/
def empty : Builder :=
  { nextId := 0
    knots := .empty
    detached := []
    vars := .empty
    tags := []
    knot := none
    waitingTags := []
    headerSeen := false
    tagsToKnot := false }

end Builder

end BranchingStory

------------------------------------------------------------
-- Knots And Stitches
------------------------------------------------------------

namespace BranchingStory

namespace Builder

/- Report the stitches of a knot that have no content. -/
def reportEmptyStitches
    (knot : String) : List Stitch → Reading Unit
  | [] => return ()
  | s :: ss => do
      if s.body.items.isEmpty then
        Reading.report (.emptyStitch knot s.name) s.line
      reportEmptyStitches knot ss

/- Finish the knot at hand. -/
def closeKnot
    (b : Builder) : Reading Builder :=
  match b.knot with
  | none => return { b with waitingTags := [] }
  | some k => do
      let k := k.closeBody
      if k.stitches.entries.isEmpty then
        Reading.report (.emptyKnot k.name) k.line
      reportEmptyStitches k.name k.stitches.values
      let own := k.stitches.values.map Stitch.body
      return {
        b with
        knot := none
        waitingTags := []
        knots :=
          if k.repeated then b.knots
          else b.knots.insert k.name k.toKnot
        detached :=
          b.detached ++ k.detached ++
            if k.repeated then own else [] }

/- A header of a knot. -/
def addKnot
    (line : Nat)
    (name : String)
    (b : Builder) : Reading Builder := do
  let b ← b.closeKnot
  let first := (b.knots.lookup name).map Knot.line
  match first with
  | some l => Reading.report (.duplicateKnot name l) line
  | none => pure ()
  return {
    b with
    knot := some (.empty name line first.isSome)
    headerSeen := true
    tagsToKnot := true }

/- A header of a stitch. -/
def addStitch
    (line : Nat)
    (name : String)
    (b : Builder) : Reading Builder :=
  match b.knot with
  | none => do
      Reading.report (.stitchWithoutKnot name) line
      return b
  | some k =>
      if k.hasStitch name then do
        Reading.report (.duplicateStitch k.name name) line
        return {
          b with
          knot := some (k.openBody none line b.nextId)
          nextId := b.nextId + 1 }
      else
        return {
          b with
          knot := some (k.openBody (some name) line b.nextId)
          nextId := b.nextId + 1
          tagsToKnot := false }

/-
  The knot and the content that take the next part.  Content
  ahead of any header belongs to the root knot, and content
  ahead of any stitch to the root stitch of its knot.
-/
def ensureBody
    (line : Nat)
    (b : Builder) : Builder × OpenKnot × OpenBody :=
  let k := b.knot.getD (.empty rootName line false)
  match k.current with
  | some body => ({ b with tagsToKnot := false }, k, body)
  | none =>
      ({ b with
          nextId := b.nextId + 1
          tagsToKnot := false },
        k, ⟨some rootName, line, b.nextId, .empty⟩)

/- Put changed content back into its knot. -/
def putBody
    (k : OpenKnot)
    (body : OpenBody)
    (b : Builder) : Builder :=
  { b with knot := some { k with current := some body } }

end Builder

end BranchingStory

------------------------------------------------------------
-- Content
------------------------------------------------------------

namespace BranchingStory

namespace Builder

/- Text or a divert. -/
def addLine
    (line : Nat)
    (text : String)
    (b : Builder) : Reading Builder := do
  let (b, k, body) := b.ensureBody line
  let content ← readLine line text.toList
  let item : Item :=
    .line b.nextId (content.withTags b.waitingTags)
  return {
    b.putBody k { body with spine := body.spine.append item }
    with
    nextId := b.nextId + 1
    waitingTags := [] }

/- An assignment. -/
def addAssignment
    (line : Nat)
    (text : String)
    (b : Builder) : Reading Builder := do
  let (b, k, body) := b.ensureBody line
  match ← readAssignment line text.toList with
  | none => return b.putBody k body
  | some (name, value) =>
      let item : Item := .assign b.nextId name value line
      return {
        b.putBody k
          { body with spine := body.spine.append item }
        with nextId := b.nextId + 1 }

/-
  The depth that a choice or a gather gets.  Nesting grows one
  level at a time.
-/
def clampDepth
    (line depth innermost : Nat) : Reading Nat := do
  if innermost + 1 < depth then
    Reading.report (.inconsistentDepth depth innermost) line
    return innermost + 1
  else return depth

/- A choice. -/
def addChoice
    (line depth : Nat)
    (sticky : Bool)
    (text : String)
    (b : Builder) : Reading Builder := do
  let (b, k, body) := b.ensureBody line
  let depth ← clampDepth line depth body.spine.depth
  let choice ← readChoice line sticky text.toList
  let choice := choice.withTags b.waitingTags
  let n := b.nextId
  let (spine, next) :=
    if body.spine.depth < depth then
      (body.spine.openSet n line (n + 2) (n + 1) choice,
        n + 3)
    else
      ((body.spine.closeTo depth).nextBranch (n + 1) n choice,
        n + 2)
  return {
    b.putBody k { body with spine := spine }
    with
    nextId := next
    waitingTags := [] }

/-
  A gather.  It closes the sets of choices of its depth and
  below.  Without text it leaves the waiting tags alone.
-/
def addGather
    (line depth : Nat)
    (text : String)
    (b : Builder) : Reading Builder := do
  let (b, k, body) := b.ensureBody line
  let depth ← clampDepth line depth body.spine.depth
  let spine := body.spine.closeTo (depth - 1)
  if text.isEmpty then
    let item : Item := .gather b.nextId depth none
    return {
      b.putBody k { body with spine := spine.append item }
      with nextId := b.nextId + 1 }
  else
    let content ← readLine line text.toList
    let item : Item :=
      .gather b.nextId depth
        (some (content.withTags b.waitingTags))
    return {
      b.putBody k { body with spine := spine.append item }
      with
      nextId := b.nextId + 1
      waitingTags := [] }

end Builder

end BranchingStory

------------------------------------------------------------
-- Declarations And Tags
------------------------------------------------------------

namespace BranchingStory

namespace Builder

/- A declaration. -/
def addDeclaration
    (line : Nat)
    (constant : Bool)
    (text : String)
    (b : Builder) : Reading Builder := do
  if b.headerSeen then
    Reading.report .lateDeclaration line
    return b
  else
    match ← readDeclaration line text.toList with
    | none => return b
    | some (name, v) =>
        match b.vars.lookup name with
        | some d => do
            Reading.report
              (.duplicateVariable name d.line) line
            return b
        | none =>
            let d : Declaration := ⟨name, v, line, constant⟩
            return {
              b with
              vars := b.vars.insert name d }

/- A line of tags. -/
def addTags
    (text : String)
    (b : Builder) : Builder :=
  let (_, tags) := splitTags text.toList
  match b.knot with
  | none => { b with tags := b.tags ++ tags }
  | some k =>
      if b.tagsToKnot then
        { b with
          knot := some { k with tags := k.tags ++ tags } }
      else { b with waitingTags := b.waitingTags ++ tags }

end Builder

end BranchingStory

------------------------------------------------------------
-- Building
------------------------------------------------------------

namespace BranchingStory

namespace Builder

/- Add a logical line. -/
def add
    (b : Builder)
    (l : ScriptLine) : Reading Builder :=
  match l.kind with
  | .declaration constant =>
      b.addDeclaration l.line constant l.text
  | .tag => return b.addTags l.text
  | .knot => b.addKnot l.line l.text
  | .stitch => b.addStitch l.line l.text
  | .choice depth sticky =>
      b.addChoice l.line depth sticky l.text
  | .gather depth => b.addGather l.line depth l.text
  | .assignment => b.addAssignment l.line l.text
  | .text => b.addLine l.line l.text
  | .divert => b.addLine l.line l.text

/-
  Where the story starts: at the root, or else in the first
  knot that has content.
-/
def start?
    (b : Builder) : Option Address :=
  if b.knots.contains rootName then some (.root rootName)
  else
    b.knots.values.findSome? fun k =>
      k.defaultStitch?.map fun s => ⟨k.name, s⟩

end Builder

/-
  The outline that logical lines make up, unless there is
  nothing to follow.
-/
def buildOutline
    (ls : List ScriptLine) : Reading (Option Outline) := do
  let b ← ls.foldlM Builder.add Builder.empty
  let b ← b.closeKnot
  match b.start? with
  | none => do
      Reading.report .emptyStory 1
      return none
  | some start =>
      return some {
        knots := b.knots
        start := start
        vars := b.vars
        tags := b.tags
        detached := b.detached
        size := b.nextId }

end BranchingStory
