import BranchingStory.Proofs.Kinds
import BranchingStory.Proofs.Leaves
import BranchingStory.Proofs.Tables

/-
  This file says what giving names and targets their meaning
  leaves alone: the places of an outline, the kinds of its
  variables, the numbers of its parts, and with them the
  outcome of every check.

  Key definitions include:
    * `Leaf.resolve`

  Key theorems include:
    * `Outline.findPlace?_resolve`
    * `Outline.leaves_resolve`
    * `Expr.checkKind_resolve`
    * `HasKind.resolve`
-/

------------------------------------------------------------
-- Fragments
------------------------------------------------------------

namespace BranchingStory

namespace Fragment

variable (o : Outline)
variable (knot : String)

mutual

/- A fragment keeps its parts, each of them resolved. -/
theorem walk_resolve
    (f : Fragment) :
    walk (f.resolve o knot) =
      (walk f).map (resolve o knot) := by
  cases f with
  | text s => simp [resolve, walk]
  | insertion e => simp [resolve, walk]
  | conditional c t f =>
      simp [resolve, walk, walkAll_resolveAll t,
        walkAll_resolveAll f]
  | alternative m items n =>
      simp [resolve, walk, walkItems_resolveItems items]
  | divert d => simp [resolve, walk]

/- The same for fragments. -/
theorem walkAll_resolveAll
    (fs : List Fragment) :
    walkAll (resolveAll o knot fs) =
      (walkAll fs).map (resolve o knot) := by
  cases fs with
  | nil => simp [resolveAll, walkAll]
  | cons f fs =>
      simp [resolveAll, walkAll, walk_resolve f,
        walkAll_resolveAll fs]

/- The same for the items of an alternative. -/
theorem walkItems_resolveItems
    (items : List (List Fragment)) :
    walkItems (resolveItems o knot items) =
      (walkItems items).map (resolve o knot) := by
  cases items with
  | nil => simp [resolveItems, walkItems]
  | cons fs items =>
      simp [resolveItems, walkItems, walkAll_resolveAll fs,
        walkItems_resolveItems items]

end

/- An alternative keeps the number of its items. -/
@[simp] theorem length_resolveItems
    (items : List (List Fragment)) :
    (resolveItems o knot items).length = items.length := by
  induction items with
  | nil => simp [resolveItems]
  | cons fs items ih => simp [resolveItems, ih]

@[simp] theorem alternative?_resolve
    (f : Fragment) :
    (f.resolve o knot).alternative? = f.alternative? := by
  cases f <;> simp [resolve, alternative?]

@[simp] theorem expression?_resolve
    (f : Fragment) :
    (f.resolve o knot).expression? =
      f.expression?.map (Expr.resolve o knot) := by
  cases f <;> simp [resolve, expression?]

end Fragment

end BranchingStory

------------------------------------------------------------
-- Leaves
------------------------------------------------------------

namespace BranchingStory

namespace Leaf

/- What a part holds once its names have their meaning. -/
def resolve
    (o : Outline)
    (knot : String) : Leaf → Leaf
  | .block => .block
  | .line content => .line (content.resolve o knot)
  | .assign name value =>
      .assign name (value.resolve o knot)
  | .choice c => .choice (c.resolve o knot)

variable (o : Outline)
variable (knot : String)

/- A part keeps its fragments, each of them resolved. -/
theorem fragments_resolve
    (l : Leaf) :
    (l.resolve o knot).fragments =
      l.fragments.map (Fragment.resolve o knot) := by
  cases l <;>
    simp [resolve, fragments, lines, ContentLine.resolve,
      Choice.resolve, Fragment.walkAll_resolveAll]

/- A part keeps its expressions, each of them resolved. -/
theorem expressions_resolve
    (l : Leaf) :
    (l.resolve o knot).expressions =
      l.expressions.map (Expr.resolve o knot) := by
  have hOwn :
      (l.resolve o knot).ownExpressions =
        l.ownExpressions.map (Expr.resolve o knot) := by
    cases l <;> simp [resolve, ownExpressions, Choice.resolve]
  have hFragments :
      ∀ fs : List Fragment,
        (fs.map (Fragment.resolve o knot)).filterMap
            Fragment.expression? =
          (fs.filterMap Fragment.expression?).map
            (Expr.resolve o knot) := by
    intro fs
    rw [List.filterMap_map, List.map_filterMap]
    congr 1
    funext f
    exact Fragment.expression?_resolve o knot f
  rw [expressions, hOwn, fragments_resolve, hFragments,
    expressions, List.map_append]

/- A part keeps its alternatives. -/
theorem alternatives_resolve
    (l : Leaf) :
    (l.resolve o knot).alternatives = l.alternatives := by
  rw [alternatives, fragments_resolve, List.filterMap_map,
    alternatives]
  congr 1
  funext f
  exact Fragment.alternative?_resolve o knot f

end Leaf

/- What a numbered leaf is once it is resolved. -/
def resolveLeaf
    (o : Outline)
    (knot : String)
    (p : Nat × Leaf) : Nat × Leaf :=
  (p.1, p.2.resolve o knot)

variable (o : Outline)
variable (knot : String)

mutual

/- A part of the content keeps its leaves, all resolved. -/
theorem Item.leaves_resolve
    (i : Item) :
    (i.resolve o knot).leaves =
      i.leaves.map (resolveLeaf o knot) := by
  cases i with
  | line id content =>
      simp [Item.resolve, resolveLeaf, Leaf.resolve]
  | gather id depth content =>
      cases content <;>
        simp [Item.resolve, resolveLeaf, Leaf.resolve,
          Node.leaf]
  | assign id name value line =>
      simp [Item.resolve, resolveLeaf, Leaf.resolve]
  | choices id depth line branches =>
      simp [Item.resolve, resolveLeaf, Leaf.resolve,
        branchLeaves_resolve branches]

/- The same for a branch. -/
theorem Branch.leaves_resolve
    (b : Branch) :
    (b.resolve o knot).leaves =
      b.leaves.map (resolveLeaf o knot) := by
  rcases b with ⟨id, outputId, depth, choice, items⟩
  simp [Branch.resolve, resolveLeaf, Leaf.resolve,
    Choice.resolve, itemLeaves_resolve items]

/- The same for branches. -/
theorem branchLeaves_resolve
    (bs : List Branch) :
    branchLeaves (resolveBranches o knot bs) =
      (branchLeaves bs).map (resolveLeaf o knot) := by
  cases bs with
  | nil => simp [resolveBranches]
  | cons b bs =>
      simp [resolveBranches, Branch.leaves_resolve b,
        branchLeaves_resolve bs]

/- The same for a content. -/
theorem itemLeaves_resolve
    (items : List Item) :
    itemLeaves (resolveItems o knot items) =
      (itemLeaves items).map (resolveLeaf o knot) := by
  cases items with
  | nil => simp [resolveItems]
  | cons i is =>
      simp [resolveItems, Item.leaves_resolve i,
        itemLeaves_resolve is]

end

/- The leaves of a resolved knot. -/
theorem Knot.leaves_resolve
    (k : Knot) :
    (k.resolve o).leaves =
      k.leaves.map (resolveLeaf o k.name) := by
  simp [Knot.leaves, Knot.resolve, Stitch.resolve,
    itemLeaves_resolve, resolveLeaf, Leaf.resolve,
    List.flatMap_map, List.map_flatMap]

namespace Outline

/- The leaves of a resolved outline, knot by knot. -/
theorem leaves_resolve
    (o : Outline) :
    o.resolve.leaves =
      (o.knots.values.flatMap fun k =>
        k.leaves.map (resolveLeaf o k.name)) ++
          o.detached.flatMap Body.leaves := by
  rw [leaves_eq]
  simp only [resolve, Table.values_mapValues,
    List.flatMap_map, Knot.leaves_resolve]

/- A resolved outline keeps the numbers of its parts. -/
@[simp] theorem ids_resolve
    (o : Outline) :
    o.resolve.ids = o.ids := by
  rw [← leaves_fst, ← leaves_fst, leaves_resolve, leaves_eq]
  simp only [List.map_append, List.map_flatMap,
    List.map_map]
  rfl

end Outline

end BranchingStory

------------------------------------------------------------
-- Places
------------------------------------------------------------

namespace BranchingStory

namespace Outline

variable (o : Outline)

/- The knots of a resolved outline. -/
theorem knots_lookup_resolve
    (name : String) :
    o.resolve.knots.lookup name =
      (o.knots.lookup name).map (Knot.resolve o) :=
  Table.lookup_mapValues _ _ _

@[simp] theorem defaultStitch?_resolve
    (k : Knot) :
    (k.resolve o).defaultStitch? = k.defaultStitch? := by
  simp [Knot.defaultStitch?, Knot.resolve]

/- Resolving keeps the names of stitches. -/
theorem keys_stitches_resolve
    (k : Knot) :
    (k.resolve o).stitches.keys = k.stitches.keys := by
  simp [Knot.resolve]

/- A resolved outline has the same addresses. -/
@[simp] theorem hasAddress_resolve
    (a : Address) :
    o.resolve.hasAddress a = o.hasAddress a :=
  hasAddress_congr (knots_lookup_resolve o)
    (keys_stitches_resolve o) a

/- Targets lead to the same places in a resolved outline. -/
@[simp] theorem findPlace?_resolve
    (current target : String) :
    o.resolve.findPlace? current target =
      o.findPlace? current target :=
  findPlace?_congr (knots_lookup_resolve o)
    (keys_stitches_resolve o) current target

end Outline

end BranchingStory

------------------------------------------------------------
-- Variables
------------------------------------------------------------

namespace BranchingStory

/- A resolved declaration keeps the kind of its variable. -/
@[simp] theorem Declaration.kind_resolve
    (o : Outline)
    (d : Declaration) :
    (d.resolve o).initial.kind = d.initial.kind := by
  unfold resolve
  split
  · next hDivert =>
      split
      · rw [hDivert]
        rfl
      · rfl
  · rfl

namespace Outline

variable (o : Outline)

/- The declarations of a resolved outline. -/
theorem vars_lookup_resolve
    (name : String) :
    o.resolve.vars.lookup name =
      (o.vars.lookup name).map (Declaration.resolve o) :=
  Table.lookup_mapValues _ _ _

@[simp] theorem contains_vars_resolve
    (name : String) :
    o.resolve.vars.contains name = o.vars.contains name := by
  simp [resolve]

@[simp] theorem holdsPlace_resolve
    (name : String) :
    o.resolve.holdsPlace name = o.holdsPlace name := by
  rw [holdsPlace, holdsPlace, vars_lookup_resolve]
  cases o.vars.lookup name with
  | none => rfl
  | some d => simp

/- Names mean the same in a resolved outline. -/
@[simp] theorem meaning?_resolve
    (knot name : String) :
    o.resolve.meaning? knot name = o.meaning? knot name := by
  simp [meaning?]

/- Diverts lead to the same places in a resolved outline. -/
@[simp] theorem destination?_resolve
    (knot target : String) :
    o.resolve.destination? knot target =
      o.destination? knot target := by
  simp [destination?]

end Outline

end BranchingStory

------------------------------------------------------------
-- Kinds
------------------------------------------------------------

namespace BranchingStory

namespace Expr

/- Names are of the same kind in a resolved outline. -/
theorem checkName_resolve
    (o : Outline)
    (knot name : String)
    (line : Nat) :
    checkName o.resolve knot name line =
      checkName o knot name line := by
  rw [checkName, checkName, Outline.vars_lookup_resolve]
  cases o.vars.lookup name with
  | none => simp
  | some d => simp

/-
  A resolved expression is checked with the same outcome, also
  against the resolved outline.
-/
theorem checkKind_resolve
    (o : Outline)
    (knot : String)
    (line : Nat)
    (e : Expr) :
    (e.resolve o knot).checkKind o.resolve knot line =
      e.checkKind o knot line := by
  induction e with
  | literal v => rfl
  | name s l meaning =>
      exact checkName_resolve o knot s l
  | target s l place =>
      simp only [resolve, checkKind,
        Outline.findPlace?_resolve]
  | unary op e ih =>
      simp only [resolve, checkKind, ih]
  | binary op e f ihLeft ihRight =>
      simp only [resolve, checkKind, ihLeft, ihRight]

end Expr

/- An expression keeps its kind in a resolved outline. -/
theorem HasKind.resolve
    {o : Outline}
    {e : Expr}
    {k : Kind}
    (hKind : HasKind o e k) :
    HasKind o.resolve e k := by
  induction hKind with
  | literal v hKind => exact .literal v hKind
  | reference name line d hLookup =>
      rw [← Declaration.kind_resolve o d]
      apply HasKind.reference
      rw [Outline.vars_lookup_resolve, hLookup]
      rfl
  | visits name line a hPlace =>
      exact .visits name line a (by simpa using hPlace)
  | target path line a hPlace =>
      exact .target path line a (by simpa using hPlace)
  | not _ hTestable ih => exact .not ih hTestable
  | negate _ hNumeric ih => exact .negate ih hNumeric
  | binary _ _ hResult ihLeft ihRight =>
      exact .binary ihLeft ihRight hResult

end BranchingStory
