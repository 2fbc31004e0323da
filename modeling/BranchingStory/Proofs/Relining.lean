import BranchingStory.Play.Follow
import BranchingStory.Proofs.Parts
import BranchingStory.Story.Read

/-
  This file renumbers the lines of a story.  Everything that
  is read from a script keeps the line that it stands on; to
  reline it changes these lines and nothing else, so that
  whatever is looked up in an outline is found as before.

  Key definitions include:
    * `Expr.relined`
    * `Fragment.relined`
    * `Item.relined`
    * `Outline.relined`
    * `Issue.relined`
    * `PlayError.relined`

  Key theorems include:
    * `Outline.relined_id`
    * `Outline.findPlace?_relined`
    * `Outline.block?_relined`
    * `Outline.branch?_relined`
-/

------------------------------------------------------------
-- Content
------------------------------------------------------------

namespace BranchingStory

variable (f : Nat → Nat)

/- An expression on other lines. -/
def Expr.relined : Expr → Expr
  | .literal v => .literal v
  | .name s line meaning => .name s (f line) meaning
  | .target path line place => .target path (f line) place
  | .unary op e => .unary op e.relined
  | .binary op left right =>
      .binary op left.relined right.relined

/- A divert on another line. -/
def Divert.relined
    (d : Divert) : Divert :=
  { d with line := f d.line }

namespace Fragment

mutual

/- A fragment on other lines. -/
def relined : Fragment → Fragment
  | .text s => .text s
  | .insertion e => .insertion (e.relined f)
  | .conditional c t e =>
      .conditional (c.relined f) (relinedAll t) (relinedAll e)
  | .alternative m items n =>
      .alternative m (relinedItems items) n
  | .divert d => .divert (d.relined f)

/- Fragments on other lines. -/
def relinedAll : List Fragment → List Fragment
  | [] => []
  | g :: gs => relined g :: relinedAll gs

/- The items of an alternative on other lines. -/
def relinedItems :
    List (List Fragment) → List (List Fragment)
  | [] => []
  | gs :: items => relinedAll gs :: relinedItems items

end

end Fragment

/- A line of content on another line. -/
def ContentLine.relined
    (l : ContentLine) : ContentLine :=
  { l with
    fragments := Fragment.relinedAll f l.fragments
    line := f l.line }

/- A choice on another line. -/
def Choice.relined
    (c : Choice) : Choice :=
  { c with
    display := c.display.relined f
    output := c.output.relined f
    line := f c.line
    conditions := c.conditions.map (Expr.relined f) }

mutual

/- A part of the content on other lines. -/
def Item.relined : Item → Item
  | .line id content => .line id (content.relined f)
  | .gather id depth content =>
      .gather id depth (content.map (ContentLine.relined f))
  | .assign id name value line =>
      .assign id name (value.relined f) (f line)
  | .choices id depth line branches =>
      .choices id depth (f line) (relinedBranches branches)

/- A branch on other lines. -/
def Branch.relined : Branch → Branch
  | .mk id outputId depth choice items =>
      .mk id outputId depth (choice.relined f)
        (relinedItems items)

/- Branches on other lines. -/
def relinedBranches : List Branch → List Branch
  | [] => []
  | b :: bs => Branch.relined b :: relinedBranches bs

/- Content on other lines. -/
def relinedItems : List Item → List Item
  | [] => []
  | i :: is => Item.relined i :: relinedItems is

end

end BranchingStory

------------------------------------------------------------
-- Outlines
------------------------------------------------------------

namespace BranchingStory

variable (f : Nat → Nat)

/- The content of a stitch on other lines. -/
def Body.relined
    (b : Body) : Body :=
  { b with items := relinedItems f b.items }

/- A stitch on other lines. -/
def Stitch.relined
    (s : Stitch) : Stitch :=
  { s with
    line := f s.line
    body := s.body.relined f }

/- A knot on other lines. -/
def Knot.relined
    (k : Knot) : Knot :=
  { k with
    line := f k.line
    stitches := k.stitches.mapValues (Stitch.relined f) }

/- A declaration on another line. -/
def Declaration.relined
    (d : Declaration) : Declaration :=
  { d with line := f d.line }

/- An outline on other lines. -/
def Outline.relined
    (o : Outline) : Outline :=
  { o with
    knots := o.knots.mapValues (Knot.relined f)
    vars := o.vars.mapValues (Declaration.relined f)
    detached := o.detached.map (Body.relined f) }

end BranchingStory

------------------------------------------------------------
-- Issues And Faults
------------------------------------------------------------

namespace BranchingStory

variable (f : Nat → Nat)

/- The cause of an issue, naming other lines. -/
def Cause.relined : Cause → Cause
  | .duplicateVariable name first =>
      .duplicateVariable name (f first)
  | .duplicateKnot knot first => .duplicateKnot knot (f first)
  | c => c

/- An issue on another line. -/
def Issue.relined
    (i : Issue) : Issue :=
  ⟨i.cause.relined f, f i.line⟩

/- A fault, naming other lines. -/
def PlayError.relined : PlayError → PlayError
  | .outOfChoices location line =>
      .outOfChoices location (f line)
  | e => e

/- The line of an issue does not change how grave it is. -/
@[simp] theorem Cause.severity_relined
    (c : Cause) :
    (c.relined f).severity = c.severity := by
  cases c <;> rfl

@[simp] theorem Issue.isError_relined
    (i : Issue) :
    (i.relined f).isError = i.isError := by
  rw [isError, isError, relined, Cause.severity_relined]

end BranchingStory

------------------------------------------------------------
-- Lists Of Content
------------------------------------------------------------

namespace BranchingStory

variable (f : Nat → Nat)

namespace Fragment

@[simp] theorem relinedAll_eq_map
    (gs : List Fragment) :
    relinedAll f gs = gs.map (relined f) := by
  induction gs with
  | nil => rfl
  | cons g gs ih => rw [relinedAll, ih, List.map_cons]

@[simp] theorem relinedItems_eq_map
    (items : List (List Fragment)) :
    relinedItems f items = items.map (List.map (relined f)) := by
  induction items with
  | nil => rfl
  | cons gs items ih =>
      rw [relinedItems, ih, relinedAll_eq_map, List.map_cons]

/- A fragment on other lines is blank text if it was. -/
@[simp] theorem isBlankText_relined
    (g : Fragment) :
    (g.relined f).isBlankText = g.isBlankText := by
  cases g <;> rfl

end Fragment

@[simp] theorem relinedItems_eq_map
    (is : List Item) :
    relinedItems f is = is.map (Item.relined f) := by
  induction is with
  | nil => rfl
  | cons i is ih => rw [relinedItems, ih, List.map_cons]

@[simp] theorem relinedBranches_eq_map
    (bs : List Branch) :
    relinedBranches f bs = bs.map (Branch.relined f) := by
  induction bs with
  | nil => rfl
  | cons b bs ih => rw [relinedBranches, ih, List.map_cons]

namespace ContentLine

variable (l : ContentLine)

/- Tags are put in front of a line wherever it stands. -/
@[simp] theorem relined_withTags
    (tags : List String) :
    (l.withTags tags).relined f =
      (l.relined f).withTags tags := rfl

/- A line of content is blank wherever it stands. -/
@[simp] theorem isBlank_relined :
    (l.relined f).isBlank = l.isBlank := by
  simp only [isBlank, relined, Fragment.relinedAll_eq_map,
    List.all_map]
  congr 1
  funext g
  exact Fragment.isBlankText_relined f g

end ContentLine

/- Tags are put in front of a choice wherever it stands. -/
@[simp] theorem Choice.relined_withTags
    (tags : List String)
    (c : Choice) :
    (c.withTags tags).relined f =
      (c.relined f).withTags tags := rfl

namespace Branch

variable (b : Branch)

@[simp] theorem id_relined :
    (b.relined f).id = b.id := by
  cases b
  rw [relined]
  rfl

@[simp] theorem choice_relined :
    (b.relined f).choice = b.choice.relined f := by
  cases b
  rw [relined]
  rfl

/- What a branch goes on with, on other lines. -/
@[simp] theorem body_relined :
    (b.relined f).body = b.body.map (Item.relined f) := by
  rcases b with ⟨id, outputId, depth, choice, items⟩
  rw [relined, relinedItems_eq_map]
  rfl

end Branch

end BranchingStory

------------------------------------------------------------
-- Lines That Stay
------------------------------------------------------------

namespace BranchingStory

/- An expression stays where it is. -/
@[simp] theorem Expr.relined_id :
    Expr.relined id = id := by
  funext e
  induction e with
  | literal v => rfl
  | name s line meaning => rfl
  | target path line place => rfl
  | unary op e ih => rw [relined, ih]; rfl
  | binary op left right ihLeft ihRight =>
      rw [relined, ihLeft, ihRight]
      rfl

namespace Fragment

mutual

/- A fragment stays where it is. -/
theorem relined_id_apply
    (g : Fragment) :
    g.relined id = g := by
  cases g with
  | text s => rfl
  | insertion e => simp [relined]
  | conditional c t e =>
      rw [relined, relinedAll_id_apply t,
        relinedAll_id_apply e, Expr.relined_id]
      rfl
  | alternative m items n =>
      rw [relined, relinedItems_id_apply items]
  | divert d => rfl

/- The same for fragments. -/
theorem relinedAll_id_apply
    (gs : List Fragment) :
    relinedAll id gs = gs := by
  cases gs with
  | nil => rfl
  | cons g gs =>
      rw [relinedAll, relined_id_apply g,
        relinedAll_id_apply gs]

/- The same for the items of an alternative. -/
theorem relinedItems_id_apply
    (items : List (List Fragment)) :
    relinedItems id items = items := by
  cases items with
  | nil => rfl
  | cons gs items =>
      rw [relinedItems, relinedAll_id_apply gs,
        relinedItems_id_apply items]

end

end Fragment

/- A line of content stays where it is. -/
@[simp] theorem ContentLine.relined_id :
    ContentLine.relined id = id := by
  funext l
  rw [relined, Fragment.relinedAll_id_apply]
  rfl

/- A choice stays where it is. -/
@[simp] theorem Choice.relined_id :
    Choice.relined id = id := by
  funext c
  rw [relined, ContentLine.relined_id, Expr.relined_id,
    List.map_id]
  rfl

mutual

/- A part of the content stays where it is. -/
theorem Item.relined_id_apply
    (i : Item) :
    i.relined id = i := by
  cases i with
  | line id' content => simp [Item.relined]
  | gather id' depth content => simp [Item.relined]
  | assign id' name value line => simp [Item.relined]
  | choices id' depth line branches =>
      rw [Item.relined, relinedBranches_id_apply branches]
      rfl

/- The same for a branch. -/
theorem Branch.relined_id_apply
    (b : Branch) :
    b.relined id = b := by
  rcases b with ⟨id', outputId, depth, choice, items⟩
  rw [Branch.relined, Choice.relined_id,
    relinedItems_id_apply items]
  rfl

/- The same for branches. -/
theorem relinedBranches_id_apply
    (bs : List Branch) :
    relinedBranches id bs = bs := by
  cases bs with
  | nil => rfl
  | cons b bs =>
      rw [relinedBranches, Branch.relined_id_apply b,
        relinedBranches_id_apply bs]

/- The same for a content. -/
theorem relinedItems_id_apply
    (is : List Item) :
    relinedItems id is = is := by
  cases is with
  | nil => rfl
  | cons i is =>
      rw [relinedItems, Item.relined_id_apply i,
        relinedItems_id_apply is]

end

/- Changing no value of a table changes nothing. -/
theorem Table.mapValues_id
    {K V : Type}
    (t : Table K V) :
    t.mapValues id = t := by
  simp [mapValues]

/- An outline stays as it is if its lines do. -/
@[simp] theorem Outline.relined_id
    (o : Outline) :
    o.relined id = o := by
  have hBody : Body.relined id = id := by
    funext b
    rw [Body.relined, relinedItems_id_apply]
    rfl
  have hStitch : Stitch.relined id = id := by
    funext s
    rw [Stitch.relined, hBody]
    rfl
  have hKnot : Knot.relined id = id := by
    funext k
    rw [Knot.relined, hStitch, Table.mapValues_id]
    rfl
  have hDeclaration : Declaration.relined id = id := rfl
  rw [relined, hKnot, hDeclaration, Table.mapValues_id,
    Table.mapValues_id, hBody, List.map_id]

/- A fault names the lines that it names. -/
@[simp] theorem PlayError.relined_id :
    PlayError.relined id = id := by
  funext e
  cases e <;> rfl

end BranchingStory

------------------------------------------------------------
-- Looking Up
------------------------------------------------------------

namespace BranchingStory

variable (f : Nat → Nat)

mutual

/- A branch is found in a part of the content as before. -/
theorem Item.branch?_relined
    (id : Nat)
    (i : Item) :
    (i.relined f).branch? id =
      (i.branch? id).map (Branch.relined f) := by
  cases i with
  | line id' content =>
      simp only [Item.relined, Item.branch?, Option.map_none]
  | gather id' depth content =>
      simp only [Item.relined, Item.branch?, Option.map_none]
  | assign id' name value line =>
      simp only [Item.relined, Item.branch?, Option.map_none]
  | choices id' depth line branches =>
      rw [Item.relined, Item.branch?, Item.branch?,
        branchAmong?_relined id branches]

/- The same for a branch. -/
theorem Branch.branch?_relined
    (id : Nat)
    (b : Branch) :
    (b.relined f).branch? id =
      (b.branch? id).map (Branch.relined f) := by
  rcases b with ⟨id', outputId, depth, choice, items⟩
  rw [Branch.relined, Branch.branch?, Branch.branch?,
    branchIn?_relined id items]
  split
  · rw [Option.map_some, Branch.relined]
  · rfl

/- The same for branches. -/
theorem branchAmong?_relined
    (id : Nat)
    (bs : List Branch) :
    branchAmong? id (relinedBranches f bs) =
      (branchAmong? id bs).map (Branch.relined f) := by
  cases bs with
  | nil =>
      rw [relinedBranches, branchAmong?, Option.map_none]
  | cons b bs =>
      rw [relinedBranches, branchAmong?, branchAmong?,
        Branch.branch?_relined id b, branchAmong?_relined id bs]
      cases b.branch? id <;> rfl

/- The same for a content. -/
theorem branchIn?_relined
    (id : Nat)
    (is : List Item) :
    branchIn? id (relinedItems f is) =
      (branchIn? id is).map (Branch.relined f) := by
  cases is with
  | nil => rw [relinedItems, branchIn?, Option.map_none]
  | cons i is =>
      rw [relinedItems, branchIn?, branchIn?,
        Item.branch?_relined id i, branchIn?_relined id is]
      cases i.branch? id <;> rfl

end

namespace Knot

variable (k : Knot)

@[simp] theorem lookup_stitches_relined
    (name : String) :
    (k.relined f).stitches.lookup name =
      (k.stitches.lookup name).map (Stitch.relined f) :=
  Table.lookup_mapValues _ _ _

@[simp] theorem contains_stitches_relined
    (name : String) :
    (k.relined f).stitches.contains name =
      k.stitches.contains name :=
  Table.contains_mapValues _ _ _

/- The stitches of a knot keep their names. -/
theorem keys_stitches_relined :
    (k.relined f).stitches.keys = k.stitches.keys :=
  Table.keys_mapValues _ _

/- The stitch that a knot begins with keeps its name. -/
@[simp] theorem defaultStitch?_relined :
    (k.relined f).defaultStitch? = k.defaultStitch? := by
  rw [defaultStitch?, contains_stitches_relined,
    keys_stitches_relined, defaultStitch?]

end Knot

namespace Outline

variable (o : Outline)

@[simp] theorem lookup_vars_relined
    (name : String) :
    (o.relined f).vars.lookup name =
      (o.vars.lookup name).map (Declaration.relined f) :=
  Table.lookup_mapValues _ _ _

@[simp] theorem lookup_knots_relined
    (name : String) :
    (o.relined f).knots.lookup name =
      (o.knots.lookup name).map (Knot.relined f) :=
  Table.lookup_mapValues _ _ _

@[simp] theorem contains_vars_relined
    (name : String) :
    (o.relined f).vars.contains name = o.vars.contains name :=
  Table.contains_mapValues _ _ _

@[simp] theorem contains_knots_relined
    (name : String) :
    (o.relined f).knots.contains name =
      o.knots.contains name :=
  Table.contains_mapValues _ _ _

/- The stitch at an address is on other lines. -/
@[simp] theorem stitch?_relined
    (a : Address) :
    (o.relined f).stitch? a =
      (o.stitch? a).map (Stitch.relined f) := by
  rw [stitch?, stitch?, lookup_knots_relined]
  cases o.knots.lookup a.knot with
  | none => rfl
  | some k => exact Knot.lookup_stitches_relined f k a.stitch

/- There is a stitch at the same addresses. -/
@[simp] theorem hasAddress_relined
    (a : Address) :
    (o.relined f).hasAddress a = o.hasAddress a :=
  hasAddress_congr (lookup_knots_relined f o)
    (Knot.keys_stitches_relined f) a

/- Targets lead to the same places. -/
@[simp] theorem findPlace?_relined
    (current target : String) :
    (o.relined f).findPlace? current target =
      o.findPlace? current target :=
  findPlace?_congr (lookup_knots_relined f o)
    (Knot.keys_stitches_relined f) current target

/- The contents of an outline are on other lines. -/
@[simp] theorem bodies_relined :
    (o.relined f).bodies = o.bodies.map (Body.relined f) := by
  have hStitches (ks : List Knot) :
      ((ks.map (Knot.relined f)).flatMap fun k =>
          k.stitches.values).map Stitch.body =
        ((ks.flatMap fun k => k.stitches.values).map
          Stitch.body).map (Body.relined f) := by
    induction ks with
    | nil => rfl
    | cons k ks ih =>
        rw [List.map_cons, List.flatMap_cons, List.map_append,
          ih, List.flatMap_cons, List.map_append,
          List.map_append]
        congr 1
        rw [Knot.relined, Table.values_mapValues, List.map_map,
          List.map_map]
        rfl
  rw [bodies, bodies, stitches, stitches, List.map_append]
  congr 1
  rw [← hStitches, relined, Table.values_mapValues]

/- The branch of a number is on other lines. -/
@[simp] theorem branch?_relined
    (id : Nat) :
    (o.relined f).branch? id =
      (o.branch? id).map (Branch.relined f) := by
  rw [branch?, branch?, bodies_relined]
  induction o.bodies with
  | nil => rfl
  | cons b bs ih =>
      rw [List.map_cons, List.findSome?_cons,
        List.findSome?_cons, ih, Body.relined,
        branchIn?_relined]
      cases branchIn? id b.items <;> rfl

/- The content of a number is on other lines. -/
@[simp] theorem block?_relined
    (id : Nat) :
    (o.relined f).block? id =
      (o.block? id).map (List.map (Item.relined f)) := by
  have hBody (bs : List Body) :
      ((bs.map (Body.relined f)).find? fun b => b.id = id) =
        (bs.find? fun b => b.id = id).map
          (Body.relined f) := by
    rw [List.find?_map]
    rfl
  rw [block?, block?, bodies_relined, hBody, branch?_relined]
  cases o.bodies.find? fun b => b.id = id with
  | some b =>
      simp only [Option.map_some, Body.relined,
        relinedItems_eq_map]
  | none =>
      simp only [Option.map_none, Option.map_map]
      congr 1
      funext b
      exact Branch.body_relined f b

end Outline

end BranchingStory
