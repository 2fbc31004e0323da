import BranchingStory.Proofs.Rereading
import BranchingStory.Story.Check

/-
  This file resolves and checks outlines on other lines: names
  and targets get the same meaning, and the same is found
  fault with.

  Key theorems include:
    * `Outline.resolve_relined`
    * `Expr.checkKind_mirrors`
    * `checkBranch_mirrors`
    * `Outline.check_mirrors`
-/

------------------------------------------------------------
-- Meanings
------------------------------------------------------------

namespace BranchingStory

variable (f : Nat → Nat)
variable (o : Outline)

namespace Outline

/- A name means the same. -/
@[simp] theorem meaning?_relined
    (knot name : String) :
    (o.relined f).meaning? knot name =
      o.meaning? knot name := by
  rw [meaning?, contains_vars_relined, findPlace?_relined,
    meaning?]

/- A divert leads to the same destination. -/
@[simp] theorem destination?_relined
    (knot target : String) :
    (o.relined f).destination? knot target =
      o.destination? knot target := by
  have hHolds :
      (o.relined f).holdsPlace target =
        o.holdsPlace target := by
    rw [holdsPlace, holdsPlace, lookup_vars_relined]
    cases o.vars.lookup target <;> rfl
  rw [destination?, hHolds, findPlace?_relined, destination?]

end Outline

/- An expression is resolved alike. -/
@[simp] theorem Expr.resolve_relined
    (knot : String)
    (e : Expr) :
    (e.relined f).resolve (o.relined f) knot =
      (e.resolve o knot).relined f := by
  induction e with
  | literal v => rfl
  | name s line meaning =>
      rw [relined, resolve, resolve, relined,
        Outline.meaning?_relined]
  | target path line place =>
      rw [relined, resolve, resolve, relined,
        Outline.findPlace?_relined]
  | unary op e ih => rw [relined, resolve, ih, resolve, relined]
  | binary op left right ihLeft ihRight =>
      rw [relined, resolve, ihLeft, ihRight, resolve, relined]

namespace Fragment

mutual

/- A fragment is resolved alike. -/
theorem resolve_relined
    (knot : String)
    (g : Fragment) :
    (g.relined f).resolve (o.relined f) knot =
      (g.resolve o knot).relined f := by
  cases g with
  | text s => rfl
  | insertion e =>
      rw [relined, resolve, resolve, relined,
        Expr.resolve_relined]
  | conditional c t e =>
      rw [relined, resolve, resolve, relined,
        Expr.resolve_relined, resolveAll_relined knot t,
        resolveAll_relined knot e]
  | alternative m items n =>
      rw [relined, resolve, resolve, relined,
        resolveItems_relined knot items]
  | divert d =>
      rw [relined, resolve, resolve, relined]
      simp only [Divert.relined, Outline.destination?_relined]

/- The same for fragments. -/
theorem resolveAll_relined
    (knot : String)
    (gs : List Fragment) :
    resolveAll (o.relined f) knot (relinedAll f gs) =
      relinedAll f (resolveAll o knot gs) := by
  cases gs with
  | nil => rfl
  | cons g gs =>
      rw [relinedAll, resolveAll, resolveAll, relinedAll,
        resolve_relined knot g, resolveAll_relined knot gs]

/- The same for the items of an alternative. -/
theorem resolveItems_relined
    (knot : String)
    (items : List (List Fragment)) :
    resolveItems (o.relined f) knot (relinedItems f items) =
      relinedItems f (resolveItems o knot items) := by
  cases items with
  | nil => rfl
  | cons gs items =>
      rw [relinedItems, resolveItems, resolveItems,
        relinedItems, resolveAll_relined knot gs,
        resolveItems_relined knot items]

end

end Fragment

/- A line of content is resolved alike. -/
@[simp] theorem ContentLine.resolve_relined
    (knot : String)
    (l : ContentLine) :
    (l.relined f).resolve (o.relined f) knot =
      (l.resolve o knot).relined f := by
  simp only [resolve, relined, Fragment.resolveAll_relined]

/- A choice is resolved alike. -/
@[simp] theorem Choice.resolve_relined
    (knot : String)
    (c : Choice) :
    (c.relined f).resolve (o.relined f) knot =
      (c.resolve o knot).relined f := by
  simp only [resolve, relined, ContentLine.resolve_relined,
    List.map_map]
  congr 1
  apply List.map_congr_left
  intro e _
  exact Expr.resolve_relined f o knot e

mutual

/- A part of the content is resolved alike. -/
theorem Item.resolve_relined
    (knot : String)
    (i : Item) :
    (i.relined f).resolve (o.relined f) knot =
      (i.resolve o knot).relined f := by
  cases i with
  | line id content =>
      rw [Item.relined, Item.resolve, Item.resolve,
        Item.relined, ContentLine.resolve_relined]
  | gather id depth content =>
      rw [Item.relined, Item.resolve, Item.resolve,
        Item.relined]
      cases content <;> simp
  | assign id name value line =>
      rw [Item.relined, Item.resolve, Item.resolve,
        Item.relined, Expr.resolve_relined]
  | choices id depth line branches =>
      rw [Item.relined, Item.resolve, Item.resolve,
        Item.relined, resolveBranches_relined knot branches]

/- The same for a branch. -/
theorem Branch.resolve_relined
    (knot : String)
    (b : Branch) :
    (b.relined f).resolve (o.relined f) knot =
      (b.resolve o knot).relined f := by
  rcases b with ⟨id, outputId, depth, choice, items⟩
  rw [Branch.relined, Branch.resolve, Branch.resolve,
    Branch.relined, Choice.resolve_relined,
    resolveItems_relined knot items]

/- The same for branches. -/
theorem resolveBranches_relined
    (knot : String)
    (bs : List Branch) :
    resolveBranches (o.relined f) knot (relinedBranches f bs) =
      relinedBranches f (resolveBranches o knot bs) := by
  cases bs with
  | nil =>
      rw [relinedBranches, resolveBranches, resolveBranches,
        relinedBranches]
  | cons b bs =>
      rw [relinedBranches, resolveBranches, resolveBranches,
        relinedBranches, Branch.resolve_relined knot b,
        resolveBranches_relined knot bs]

/- The same for a content. -/
theorem resolveItems_relined
    (knot : String)
    (is : List Item) :
    resolveItems (o.relined f) knot (relinedItems f is) =
      relinedItems f (resolveItems o knot is) := by
  cases is with
  | nil =>
      rw [relinedItems, resolveItems, resolveItems,
        relinedItems]
  | cons i is =>
      rw [relinedItems, resolveItems, resolveItems,
        relinedItems, Item.resolve_relined knot i,
        resolveItems_relined knot is]

end

/- A declaration is resolved alike. -/
theorem Declaration.resolve_relined
    (d : Declaration) :
    (d.relined f).resolve (o.relined f) =
      (d.resolve o).relined f := by
  rcases d with ⟨name, initial, line, constant⟩
  cases initial
  case divert target =>
    simp only [resolve, relined, Outline.findPlace?_relined]
    cases o.findPlace? "" target <;> rfl
  all_goals rfl

/- A stitch is resolved alike. -/
theorem Stitch.resolve_relined
    (knot : String)
    (s : Stitch) :
    (s.relined f).resolve (o.relined f) knot =
      (s.resolve o knot).relined f := by
  rw [relined, resolve, resolve, relined, Body.relined,
    Body.relined, BranchingStory.resolveItems_relined]

/- A knot is resolved alike. -/
theorem Knot.resolve_relined
    (k : Knot) :
    (k.relined f).resolve (o.relined f) =
      (k.resolve o).relined f := by
  have hStitches :=
    Table.mapValues_comm (Stitch.resolve_relined f o k.name)
      k.stitches
  rw [resolve, resolve, relined, relined, hStitches]

/- An outline on other lines is resolved alike. -/
theorem Outline.resolve_relined :
    (o.relined f).resolve = o.resolve.relined f := by
  have hKnots :=
    Table.mapValues_comm (Knot.resolve_relined f o) o.knots
  have hVars :=
    Table.mapValues_comm (Declaration.resolve_relined f o)
      o.vars
  have hSame :
      (o.relined f).knots = o.knots.mapValues (Knot.relined f) ∧
        (o.relined f).vars =
          o.vars.mapValues (Declaration.relined f) :=
    ⟨rfl, rfl⟩
  rw [resolve, hSame.1, hSame.2, hKnots, hVars]
  rfl

end BranchingStory

------------------------------------------------------------
-- Expressions
------------------------------------------------------------

namespace BranchingStory

open Reading

variable {f : Nat → Nat}
variable {o : Outline}
variable {line : Nat}

namespace Expr

/- What a name stands for is of the same kind. -/
theorem checkName_mirrors
    (knot name : String) :
    Mirrors f id (checkName o knot name line)
      (checkName (o.relined f) knot name (f line)) := by
  unfold checkName
  rw [Outline.lookup_vars_relined, Outline.findPlace?_relined]
  cases o.vars.lookup name with
  | some d => exact .pure rfl
  | none =>
      cases o.findPlace? knot name with
      | some a => exact .pure rfl
      | none => exact .report_pure rfl rfl rfl

/- An expression is of the same kind. -/
theorem checkKind_mirrors
    (knot : String)
    (e : Expr) :
    Mirrors f id (e.checkKind o knot line)
      ((e.relined f).checkKind (o.relined f) knot
        (f line)) := by
  induction e with
  | literal v => exact .pure rfl
  | name s l meaning => exact checkName_mirrors knot s
  | target s l place =>
      rw [relined, checkKind, checkKind,
        Outline.findPlace?_relined]
      cases o.findPlace? knot s with
      | some a => exact .pure rfl
      | none => exact .report_pure rfl rfl rfl
  | unary op e ih =>
      rw [relined, checkKind, checkKind]
      refine ih.bind fun k? => ?_
      cases k? with
      | none => cases op <;> exact .pure rfl
      | some k =>
          cases op with
          | not =>
              exact .ite (.pure rfl) (.report_pure rfl rfl rfl)
          | negate =>
              exact .ite (.pure rfl) (.report_pure rfl rfl rfl)
  | binary op left right ihLeft ihRight =>
      rw [relined, checkKind, checkKind]
      refine ihLeft.bind fun l? => ?_
      refine ihRight.bind fun r? => ?_
      cases l? with
      | none => exact .pure rfl
      | some l =>
          cases r? with
          | none => exact .pure rfl
          | some r =>
              dsimp only [id_eq]
              cases op.resultKind? l r with
              | some k => exact .pure rfl
              | none => exact .report_pure rfl rfl rfl

/- A condition is checked alike. -/
theorem checkCondition_mirrors
    (knot : String)
    (e : Expr) :
    Mirrors f id (e.checkCondition o knot line)
      ((e.relined f).checkCondition (o.relined f) knot
        (f line)) := by
  refine (checkKind_mirrors knot e).bind fun k? => ?_
  cases k? with
  | none => exact .pure rfl
  | some k => exact .ite (.pure rfl) (.report rfl rfl)

end Expr

end BranchingStory

------------------------------------------------------------
-- Lines
------------------------------------------------------------

namespace BranchingStory

namespace Fragment

variable (f : Nat → Nat)

mutual

/- A walk through a fragment finds the same on other lines. -/
theorem walk_relined
    (g : Fragment) :
    (g.relined f).walk = g.walk.map (relined f) := by
  cases g with
  | text s => rfl
  | insertion e => rfl
  | conditional c t e =>
      rw [relined, walk, walk, walkAll_relined t,
        walkAll_relined e, List.map_cons, List.map_append,
        relined]
  | alternative m items n =>
      rw [relined, walk, walk, walkItems_relined items,
        List.map_cons, relined]
  | divert d => rfl

/- The same for fragments. -/
theorem walkAll_relined
    (gs : List Fragment) :
    walkAll (relinedAll f gs) =
      (walkAll gs).map (relined f) := by
  cases gs with
  | nil => rfl
  | cons g gs =>
      rw [relinedAll, walkAll, walkAll, walk_relined g,
        walkAll_relined gs, List.map_append]

/- The same for the items of an alternative. -/
theorem walkItems_relined
    (items : List (List Fragment)) :
    walkItems (relinedItems f items) =
      (walkItems items).map (relined f) := by
  cases items with
  | nil => rfl
  | cons gs items =>
      rw [relinedItems, walkItems, walkItems,
        walkAll_relined gs, walkItems_relined items,
        List.map_append]

end

end Fragment

open Reading

variable {f : Nat → Nat}
variable {o : Outline}

/- A fragment is checked alike. -/
theorem Fragment.check_mirrors
    (knot : String)
    (line : Nat)
    (g : Fragment) :
    Mirrors f id (g.check o knot line)
      ((g.relined f).check (o.relined f) knot (f line)) := by
  cases g with
  | text s => exact .pure rfl
  | insertion e =>
      exact (Expr.checkKind_mirrors knot e).bind fun _ =>
        .pure rfl
  | conditional c t e =>
      exact Expr.checkCondition_mirrors knot c
  | alternative m items n => exact .pure rfl
  | divert d =>
      rw [relined, check, check, Divert.relined,
        Outline.destination?_relined]
      exact .ite (.pure rfl) (.report rfl rfl)

/- A line is checked alike. -/
theorem ContentLine.check_mirrors
    (knot : String)
    (l : ContentLine) :
    Mirrors f id (l.check o knot)
      ((l.relined f).check (o.relined f) knot) := by
  rw [check, check, relined, Fragment.walkAll_relined]
  exact .forM fun g _ => Fragment.check_mirrors knot l.line g

end BranchingStory

------------------------------------------------------------
-- Choices And Assignments
------------------------------------------------------------

namespace BranchingStory

open Reading

variable {f : Nat → Nat}
variable {o : Outline}
variable (knot : String)

/- Fallbacks are counted alike. -/
theorem checkFallbackCount_mirrors
    (cs : List Choice) :
    Mirrors f id (checkFallbackCount cs)
      (checkFallbackCount (cs.map (Choice.relined f))) := by
  rcases cs with _ | ⟨c, _ | ⟨second, cs⟩⟩
  · exact .pure rfl
  · exact .pure rfl
  · exact .report rfl rfl

/- A choice is checked alike. -/
theorem Choice.check_mirrors
    (c : Choice) :
    Mirrors f id (c.check o knot)
      ((c.relined f).check (o.relined f) knot) := by
  refine Mirrors.bind (.forM fun e _ => ?_) fun _ =>
    ContentLine.check_mirrors knot c.display
  exact Expr.checkCondition_mirrors knot e

/- A set of choices is checked alike. -/
theorem checkChoices_mirrors
    (bs : List Branch) :
    Mirrors f id (checkChoices o knot bs)
      (checkChoices (o.relined f) knot
        (bs.map (Branch.relined f))) := by
  have hChoices :
      (bs.map (Branch.relined f)).map Branch.choice =
        (bs.map Branch.choice).map (Choice.relined f) := by
    simp only [List.map_map, Function.comp_def,
      Branch.choice_relined]
  have hFallbacks (cs : List Choice) :
      (cs.map (Choice.relined f)).filter Choice.fallback =
        (cs.filter Choice.fallback).map (Choice.relined f) := by
    rw [List.filter_map]
    rfl
  unfold checkChoices
  dsimp only
  rw [hChoices, hFallbacks]
  refine (checkFallbackCount_mirrors _).bind fun _ => ?_
  refine Mirrors.bind (.forM fun c _ => ?_) fun _ =>
    .forM fun c _ => Choice.check_mirrors knot c
  exact .ite (.pure rfl) (.report rfl rfl)

/- An assignment is checked alike. -/
theorem checkAssignment_mirrors
    (name : String)
    (value : Expr)
    (line : Nat) :
    Mirrors f id (checkAssignment o knot name value line)
      (checkAssignment (o.relined f) knot name
        (value.relined f) (f line)) := by
  unfold checkAssignment
  rw [Outline.lookup_vars_relined]
  cases o.vars.lookup name with
  | none => exact .report rfl rfl
  | some d =>
      refine .guarded rfl rfl ?_
      refine (Expr.checkKind_mirrors knot value).bind
        fun k? => ?_
      cases k? with
      | none => exact .pure rfl
      | some k => exact .ite (.pure rfl) (.report rfl rfl)

end BranchingStory

------------------------------------------------------------
-- Content
------------------------------------------------------------

namespace BranchingStory

open Reading

variable {f : Nat → Nat}
variable {o : Outline}
variable (knot : String)

/- A part of the content is checked alike. -/
theorem checkItem_mirrors
    (i : Item) :
    Mirrors f id (i.check o knot)
      ((i.relined f).check (o.relined f) knot) := by
  cases i with
  | line id content =>
      rw [Item.relined]
      exact ContentLine.check_mirrors knot content
  | gather id depth content =>
      rw [Item.relined]
      cases content with
      | none => exact .pure rfl
      | some content =>
          exact ContentLine.check_mirrors knot content
  | assign id name value line =>
      rw [Item.relined]
      exact checkAssignment_mirrors knot name value line
  | choices id depth line branches =>
      rw [Item.relined, relinedBranches_eq_map]
      exact checkChoices_mirrors knot branches

mutual

/- The branches of a part of the content are checked alike. -/
theorem checkItemBranches_mirrors
    (i : Item) :
    Mirrors f id (i.checkBranches o knot)
      ((i.relined f).checkBranches (o.relined f) knot) := by
  cases i with
  | line id content =>
      simp only [Item.relined, Item.checkBranches]
      exact .pure rfl
  | gather id depth content =>
      simp only [Item.relined, Item.checkBranches]
      exact .pure rfl
  | assign id name value line =>
      simp only [Item.relined, Item.checkBranches]
      exact .pure rfl
  | choices id depth line branches =>
      rw [Item.relined, Item.checkBranches, Item.checkBranches]
      exact checkBranchList_mirrors branches

/- The same for a branch. -/
theorem checkBranch_mirrors
    (b : Branch) :
    Mirrors f id (b.check o knot)
      ((b.relined f).check (o.relined f) knot) := by
  rcases b with ⟨id, outputId, depth, choice, items⟩
  rw [Branch.relined, Branch.check, Branch.check]
  refine (ContentLine.check_mirrors knot choice.output).bind
    fun _ => ?_
  have hInner := checkInnerBranches_mirrors items
  rw [relinedItems_eq_map] at hInner ⊢
  exact Mirrors.bind
    (.forM fun i _ => checkItem_mirrors knot i) fun _ =>
      hInner

/- The same for branches. -/
theorem checkBranchList_mirrors
    (bs : List Branch) :
    Mirrors f id (checkBranchList o knot bs)
      (checkBranchList (o.relined f) knot
        (relinedBranches f bs)) := by
  cases bs with
  | nil =>
      rw [relinedBranches, checkBranchList, checkBranchList]
      exact .pure rfl
  | cons b bs =>
      rw [relinedBranches, checkBranchList, checkBranchList]
      exact (checkBranchList_mirrors bs).bind fun _ =>
        checkBranch_mirrors b

/- The same for the branches in a content. -/
theorem checkInnerBranches_mirrors
    (is : List Item) :
    Mirrors f id (checkInnerBranches o knot is)
      (checkInnerBranches (o.relined f) knot
        (relinedItems f is)) := by
  cases is with
  | nil =>
      rw [relinedItems, checkInnerBranches,
        checkInnerBranches]
      exact .pure rfl
  | cons i is =>
      rw [relinedItems, checkInnerBranches,
        checkInnerBranches]
      exact (checkInnerBranches_mirrors is).bind fun _ =>
        checkItemBranches_mirrors i

end

/- A stitch is checked alike. -/
theorem Stitch.check_mirrors
    (s : Stitch) :
    Mirrors f id (s.check o knot)
      ((s.relined f).check (o.relined f) knot) := by
  have hInner :=
    checkInnerBranches_mirrors (f := f) (o := o) knot
      s.body.items
  rw [relinedItems_eq_map] at hInner
  rw [check, check, relined, Body.relined,
    relinedItems_eq_map]
  exact Mirrors.bind
    (.forM fun i _ => checkItem_mirrors knot i) fun _ =>
      hInner

end BranchingStory

------------------------------------------------------------
-- Outlines
------------------------------------------------------------

namespace BranchingStory

open Reading

variable {f : Nat → Nat}
variable {o : Outline}

/- A declaration is checked alike. -/
theorem Declaration.check_mirrors
    (d : Declaration) :
    Mirrors f id (d.check o)
      ((d.relined f).check (o.relined f)) := by
  rcases d with ⟨name, initial, line, constant⟩
  simp only [check, relined, Outline.contains_knots_relined]
  refine .guarded rfl rfl ?_
  cases initial
  case divert target =>
    dsimp only
    rw [Outline.findPlace?_relined]
    exact .ite (.pure rfl) (.report rfl rfl)
  all_goals exact .pure rfl

/- A knot is checked alike. -/
theorem Knot.check_mirrors
    (k : Knot) :
    Mirrors f id (k.check o)
      ((k.relined f).check (o.relined f)) := by
  rw [check, check, relined, Table.values_mapValues]
  exact .forM fun s _ => Stitch.check_mirrors k.name s

/- An outline on other lines is checked alike. -/
theorem Outline.check_mirrors
    (o : Outline) :
    Mirrors f id o.check (o.relined f).check := by
  have hVars :
      (o.relined f).vars.values =
        o.vars.values.map (Declaration.relined f) :=
    Table.values_mapValues _ _
  have hKnots :
      (o.relined f).knots.values =
        o.knots.values.map (Knot.relined f) :=
    Table.values_mapValues _ _
  rw [check, check, hVars, hKnots]
  exact Mirrors.bind
    (.forM fun d _ => Declaration.check_mirrors d) fun _ =>
      .forM fun k _ => Knot.check_mirrors k

end BranchingStory
