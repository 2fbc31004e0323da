import BranchingStory.Proofs.Parts

/-
  This file lists what the numbered parts of an outline hold
  by themselves.  Unlike the parts, the list is only added to
  while an outline is being built.

  Key definitions include:
    * `Leaf`
    * `Leaf.fragments`
    * `Leaf.expressions`
    * `Leaf.alternatives`
    * `itemLeaves`
    * `Outline.leaves`

  Key theorems include:
    * `leaf_mem_itemLeaves`
    * `choice_mem_itemLeaves`
-/

------------------------------------------------------------
-- Leaves
------------------------------------------------------------

namespace BranchingStory

/-
  What a numbered part holds by itself: nothing, a line, an
  assignment, or the choice of a branch.  The output line of a
  choice is a part of its own.
-/
inductive Leaf where
  | block
  | line (content : ContentLine)
  | assign (name : String) (value : Expr)
  | choice (c : Choice)

/- What a part holds by itself. -/
def Node.leaf : Node → Leaf
  | .container _ => .block
  | .branch _ _ choice => .choice choice
  | .choices _ _ _ => .block
  | .line content => .line content
  | .gather _ none => .block
  | .gather _ (some content) => .line content
  | .assign name value _ => .assign name value

/- The expression that a fragment evaluates itself. -/
def Fragment.expression? : Fragment → Option Expr
  | .insertion e => some e
  | .conditional c _ _ => some c
  | _ => none

/- The number of an alternative and how many items it has. -/
def Fragment.alternative? : Fragment → Option (Nat × Nat)
  | .alternative _ items number => some (number, items.length)
  | _ => none

namespace Leaf

/- The lines that a part can show. -/
def lines : Leaf → List ContentLine
  | .line content => [content]
  | .choice c => [c.display]
  | _ => []

/- The fragments of a part, at any depth. -/
def fragments
    (l : Leaf) : List Fragment :=
  l.lines.flatMap fun c => Fragment.walkAll c.fragments

/- The expressions of a part outside its lines. -/
def ownExpressions : Leaf → List Expr
  | .assign _ value => [value]
  | .choice c => c.conditions
  | _ => []

/- All expressions of a part. -/
def expressions
    (l : Leaf) : List Expr :=
  l.ownExpressions ++
    l.fragments.filterMap Fragment.expression?

/- The alternatives of a part, each with its size. -/
def alternatives
    (l : Leaf) : List (Nat × Nat) :=
  l.fragments.filterMap Fragment.alternative?

end Leaf

end BranchingStory

------------------------------------------------------------
-- Leaves Of Contents
------------------------------------------------------------

namespace BranchingStory

/- The leaves of numbered nodes. -/
def leavesOf
    (ns : List (Nat × Node)) : List (Nat × Leaf) :=
  ns.map fun n => (n.1, n.2.leaf)

/- The leaves of a part of the content. -/
def Item.leaves
    (i : Item) : List (Nat × Leaf) :=
  leavesOf i.nodes

/- The leaves of a branch. -/
def Branch.leaves
    (b : Branch) : List (Nat × Leaf) :=
  leavesOf b.nodes

/- The leaves of branches. -/
def branchLeaves
    (bs : List Branch) : List (Nat × Leaf) :=
  leavesOf (branchNodes bs)

/- The leaves of a content. -/
def itemLeaves
    (items : List Item) : List (Nat × Leaf) :=
  leavesOf (itemNodes items)

/- The leaves of a whole content, its own first. -/
def Body.leaves
    (b : Body) : List (Nat × Leaf) :=
  leavesOf b.nodes

/- The leaves of a knot. -/
def Knot.leaves
    (k : Knot) : List (Nat × Leaf) :=
  k.stitches.values.flatMap fun s => s.body.leaves

/- The leaves of an outline. -/
def Outline.leaves
    (o : Outline) : List (Nat × Leaf) :=
  o.bodies.flatMap Body.leaves

end BranchingStory

------------------------------------------------------------
-- Listing Leaves
------------------------------------------------------------

namespace BranchingStory

@[simp] theorem itemLeaves_nil :
    itemLeaves [] = [] := by
  simp [itemLeaves, leavesOf, itemNodes]

@[simp] theorem itemLeaves_cons
    (i : Item)
    (is : List Item) :
    itemLeaves (i :: is) = i.leaves ++ itemLeaves is := by
  simp [itemLeaves, leavesOf, Item.leaves, itemNodes]

@[simp] theorem itemLeaves_append
    (is js : List Item) :
    itemLeaves (is ++ js) =
      itemLeaves is ++ itemLeaves js := by
  induction is with
  | nil => simp
  | cons i is ih => simp [ih]

@[simp] theorem branchLeaves_nil :
    branchLeaves [] = [] := by
  simp [branchLeaves, leavesOf, branchNodes]

@[simp] theorem branchLeaves_cons
    (b : Branch)
    (bs : List Branch) :
    branchLeaves (b :: bs) =
      b.leaves ++ branchLeaves bs := by
  simp [branchLeaves, leavesOf, Branch.leaves, branchNodes]

@[simp] theorem branchLeaves_append
    (bs cs : List Branch) :
    branchLeaves (bs ++ cs) =
      branchLeaves bs ++ branchLeaves cs := by
  induction bs with
  | nil => simp
  | cons b bs ih => simp [ih]

@[simp] theorem Branch.leaves_mk
    (id outputId depth : Nat)
    (choice : Choice)
    (items : List Item) :
    (Branch.mk id outputId depth choice items).leaves =
      (outputId, .line choice.output) ::
        (id, .choice choice) :: itemLeaves items := by
  simp [Branch.leaves, leavesOf, Branch.nodes, itemLeaves,
    Node.leaf, Branch.node, Branch.choice]

@[simp] theorem Item.leaves_line
    (id : Nat)
    (content : ContentLine) :
    (Item.line id content).leaves =
      [(id, .line content)] := by
  simp [Item.leaves, leavesOf, Item.nodes, Node.leaf]

@[simp] theorem Item.leaves_gather
    (id depth : Nat)
    (content : Option ContentLine) :
    (Item.gather id depth content).leaves =
      [(id, (Node.gather depth content).leaf)] := by
  simp [Item.leaves, leavesOf, Item.nodes]

@[simp] theorem Item.leaves_assign
    (id : Nat)
    (name : String)
    (value : Expr)
    (line : Nat) :
    (Item.assign id name value line).leaves =
      [(id, .assign name value)] := by
  simp [Item.leaves, leavesOf, Item.nodes, Node.leaf]

@[simp] theorem Item.leaves_choices
    (id depth line : Nat)
    (branches : List Branch) :
    (Item.choices id depth line branches).leaves =
      (id, .block) :: branchLeaves branches := by
  simp [Item.leaves, leavesOf, Item.nodes, Node.leaf,
    branchLeaves]

@[simp] theorem Body.leaves_eq
    (b : Body) :
    b.leaves = (b.id, .block) :: itemLeaves b.items := by
  simp [Body.leaves, leavesOf, Body.nodes, Node.leaf,
    itemLeaves]

@[simp] theorem Body.leaves_fst
    (b : Body) :
    b.leaves.map Prod.fst = b.ids := by
  simp [Body.leaves, leavesOf, Body.ids]

/- The leaves of an outline, knot by knot. -/
theorem Outline.leaves_eq
    (o : Outline) :
    o.leaves =
      o.knots.values.flatMap Knot.leaves ++
        o.detached.flatMap Body.leaves := by
  rw [leaves, bodies, List.flatMap_append, List.flatMap_map,
    stitches, List.flatMap_assoc]
  rfl

theorem Outline.leaves_fst
    (o : Outline) :
    o.leaves.map Prod.fst = o.ids := by
  rw [Outline.leaves, Outline.ids_eq, List.map_flatMap]
  simp only [Body.leaves_fst]

end BranchingStory

------------------------------------------------------------
-- Finding Leaves
------------------------------------------------------------

namespace BranchingStory

/- The choice of a branch of a set is among its leaves. -/
theorem choice_mem_branchLeaves
    {bs : List Branch}
    {b : Branch}
    (hMem : b ∈ bs) :
    (b.id, .choice b.choice) ∈ branchLeaves bs := by
  induction bs with
  | nil => cases hMem
  | cons c cs ih =>
      rw [branchLeaves_cons]
      rcases List.mem_cons.mp hMem with rfl | hMem
      · rcases b with ⟨id, outputId, depth, choice, items⟩
        simp [Branch.id, Branch.choice]
      · exact List.mem_append_right _ (ih hMem)

/- What is inside a content leaves no more than the content. -/
theorem itemLeaves_subset
    (items : List Item)
    (i : Item)
    (hMem : i ∈ innerItems items) :
    i.leaves ⊆ itemLeaves items :=
  List.map_subset _ (nodes_subset_itemNodes hMem)

/- The leaf of a part is among its leaves. -/
theorem Item.leaf_mem_leaves
    (i : Item) :
    (i.id, i.node.leaf) ∈ i.leaves := by
  cases i <;> simp [Item.id, Item.node, Node.leaf]

/- The leaf of a part at any depth is among the leaves. -/
theorem leaf_mem_itemLeaves
    {items : List Item}
    {i : Item}
    (hMem : i ∈ innerItems items) :
    (i.id, i.node.leaf) ∈ itemLeaves items :=
  itemLeaves_subset items i hMem i.leaf_mem_leaves

/- The choice of a branch at any depth is among the leaves. -/
theorem choice_mem_itemLeaves
    {items : List Item}
    {b : Branch}
    (hMem : b ∈ branchesIn items) :
    (b.id, .choice b.choice) ∈ itemLeaves items := by
  rcases (mem_branchesIn_iff items b).mp hMem with
    ⟨id, depth, line, branches, hItem, hBranch⟩
  apply itemLeaves_subset items _ hItem
  rw [Item.leaves_choices]
  exact List.mem_cons_of_mem _
    (choice_mem_branchLeaves hBranch)

end BranchingStory

------------------------------------------------------------
-- Leaves Of Blocks
------------------------------------------------------------

namespace BranchingStory

/- The leaves of a branch of a set are among its leaves. -/
theorem leaves_subset_branchLeaves
    {bs : List Branch}
    {b : Branch}
    (hMem : b ∈ bs) :
    b.leaves ⊆ branchLeaves bs := by
  induction bs with
  | nil => cases hMem
  | cons c cs ih =>
      intro p hLeaf
      rw [branchLeaves_cons]
      rcases List.mem_cons.mp hMem with rfl | hMem
      · exact List.mem_append_left _ hLeaf
      · exact List.mem_append_right _ (ih hMem hLeaf)

/- What a branch goes on with leaves no more than it does. -/
theorem itemLeaves_body_subset
    {items : List Item}
    {b : Branch}
    (hMem : b ∈ branchesIn items) :
    itemLeaves b.body ⊆ itemLeaves items := by
  rcases (mem_branchesIn_iff items b).mp hMem with
    ⟨id, depth, line, branches, hItem, hBranch⟩
  intro p hLeaf
  apply itemLeaves_subset items _ hItem
  rw [Item.leaves_choices]
  apply List.mem_cons_of_mem
  apply leaves_subset_branchLeaves hBranch
  rcases b with ⟨bId, outputId, bDepth, choice, bItems⟩
  rw [Branch.leaves_mk]
  simp only [Branch.body, Branch.outputId, Branch.choice,
    Branch.items, itemLeaves_cons, Item.leaves_line,
    List.mem_append, List.mem_singleton] at hLeaf
  rcases hLeaf with rfl | hLeaf
  · exact List.mem_cons_self
  · exact List.mem_cons_of_mem _
      (List.mem_cons_of_mem _ hLeaf)

namespace Outline

variable {o : Outline}

/-
  A block is the content of a stitch, or what a branch goes on
  with.
-/
theorem block?_eq_some
    {id : Nat}
    {items : List Item}
    (hBlock : o.block? id = some items) :
    ∃ body ∈ o.bodies, items = body.items ∨
      ∃ b ∈ branchesIn body.items, items = b.body := by
  rw [block?] at hBlock
  split at hBlock
  · next body hFound =>
      cases hBlock
      exact ⟨body, List.mem_of_find?_eq_some hFound,
        Or.inl rfl⟩
  · rcases Option.map_eq_some_iff.mp hBlock with
      ⟨b, hFound, rfl⟩
    rcases
        List.mem_flatMap.mp
          (mem_branches_of_branch? hFound).2 with
      ⟨body, hBody, hMem⟩
    exact ⟨body, hBody, Or.inr ⟨b, hMem, rfl⟩⟩

/- The number of a block is the number of a part. -/
theorem mem_ids_of_block?
    {id : Nat}
    {items : List Item}
    (hBlock : o.block? id = some items) :
    id ∈ o.ids := by
  rw [block?] at hBlock
  split at hBlock
  · next body hFound =>
      have hId : body.id = id := by
        simpa using List.find?_some hFound
      rw [← hId]
      exact bodyId_mem_ids (List.mem_of_find?_eq_some hFound)
  · rcases Option.map_eq_some_iff.mp hBlock with
      ⟨b, hFound, rfl⟩
    rcases mem_branches_of_branch? hFound with ⟨hId, hMem⟩
    rw [← hId]
    exact branchId_mem_ids hMem

/- The leaves of a block are among those of the outline. -/
theorem itemLeaves_block_subset
    {id : Nat}
    {items : List Item}
    (hBlock : o.block? id = some items) :
    itemLeaves items ⊆ o.leaves := by
  rcases block?_eq_some hBlock with ⟨body, hBody, hItems⟩
  have hSubset : itemLeaves items ⊆ itemLeaves body.items := by
    rcases hItems with rfl | ⟨b, hMem, rfl⟩
    · exact fun p hLeaf => hLeaf
    · exact itemLeaves_body_subset hMem
  intro p hLeaf
  refine List.mem_flatMap.mpr ⟨body, hBody, ?_⟩
  rw [Body.leaves_eq]
  exact List.mem_cons_of_mem _ (hSubset hLeaf)

/- The branches of a set in a block are branches. -/
theorem branches_block_subset
    {id : Nat}
    {items : List Item}
    (hBlock : o.block? id = some items)
    {setId depth line : Nat}
    {branches : List Branch}
    (hMem :
      Item.choices setId depth line branches ∈ items) :
    branches ⊆ o.branches := by
  rcases block?_eq_some hBlock with ⟨body, hBody, hItems⟩
  intro b hBranch
  refine List.mem_flatMap.mpr ⟨body, hBody, ?_⟩
  have hIn := subset_branchesIn hMem hBranch
  rcases hItems with rfl | ⟨c, hOuter, rfl⟩
  · exact hIn
  · exact branchesIn_body_subset hOuter hIn

/- No branch of a set in a block stands twice. -/
theorem nodup_branches_block
    (hNodup : o.ids.Nodup)
    {id : Nat}
    {items : List Item}
    (hBlock : o.block? id = some items)
    {setId depth line : Nat}
    {branches : List Branch}
    (hMem :
      Item.choices setId depth line branches ∈ items) :
    (branches.map Branch.id).Nodup := by
  rcases block?_eq_some hBlock with ⟨body, hBody, hItems⟩
  have hIds := nodup_body hNodup hBody
  rw [Body.ids_eq, List.nodup_cons] at hIds
  have hInner := subset_innerItems items hMem
  rcases hItems with rfl | ⟨c, hOuter, rfl⟩
  · exact nodup_branchIds hIds.2 hInner
  · exact nodup_branchIds hIds.2
      (innerItems_body_subset hOuter hInner)

end Outline

end BranchingStory
