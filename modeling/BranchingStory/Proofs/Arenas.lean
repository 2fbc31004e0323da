import BranchingStory.Play.Follow
import BranchingStory.Proofs.Building
import Mathlib.Data.List.Sort
import Mathlib.Logic.Relation

/-
  This file compares contents with the nodes that they consist
  of, listed in the order of their numbers.  Where the numbers
  are those of a list and every block is in shape, the nodes
  make up a forest whose links lead where they should.

  Key definitions include:
    * `Node.parts`
    * `Node.block?`
    * `IsPartOf`
    * `ArenaIsSound`
    * `BlockFits`
    * `TreeFits`
    * `arenaOf`

  Key theorems include:
    * `partsOf_itemNodes`
    * `innerItems_perm`
    * `getElem?_arenaOf`
    * `arenaIsSound_of_fits`
-/

------------------------------------------------------------
-- Arenas
------------------------------------------------------------

namespace BranchingStory

namespace Node

/- The numbers of the parts that a node names. -/
def parts : Node → List Nat
  | container ids => ids
  | branch _ ids _ => ids
  | choices _ _ ids => ids
  | _ => []

/-
  How deep the content of a node is nested, and the numbers of
  its parts, if the node is a stitch or a branch.
-/
def block? : Node → Option (Nat × List Nat)
  | container ids => some (0, ids)
  | branch depth ids _ => some (depth, ids)
  | _ => none

/- Whether a node can be part of a content. -/
def isItem : Node → Bool
  | container _ => false
  | branch _ _ _ => false
  | _ => true

/- The numbers of the alternatives that a node shows itself. -/
def alternativeNumbers
    (n : Node) : List Nat :=
  n.leaf.alternatives.map Prod.fst

/- How deep a node is nested, if it has parts of its own. -/
def level : Node → Nat
  | branch depth _ _ => 2 * depth
  | choices depth _ _ => 2 * depth - 1
  | _ => 0

end Node

/- Whether a node is part of another. -/
def IsPartOf
    (ns : List Node)
    (j i : Nat) : Prop :=
  ∃ n, ns[i]? = some n ∧ j ∈ n.parts

/-
  Whether the nodes of a list are linked as they should be.
  Blocks hold parts of contents, and sets of choices hold
  branches of their own depth, at least one.  No node is part
  of two, or of itself by any way.  A branch begins with the
  output line of its choice.  A set of choices stands in a
  stitch or in a branch of the depth above, at its end or ahead
  of a gather.  No two alternatives have the same number.
-/
structure ArenaIsSound
    (ns : List Node) : Prop where
  items : ∀ (i : Nat) n depth ids, ns[i]? = some n →
    n.block? = some (depth, ids) →
      ∀ j ∈ ids, ∃ m, ns[j]? = some m ∧ m.isItem = true
  branches : ∀ (i : Nat) depth line ids,
    ns[i]? = some (.choices depth line ids) →
      ids ≠ [] ∧ ∀ j ∈ ids, ∃ items c,
        ns[j]? = some (.branch depth items c)
  oneParent : (ns.flatMap Node.parts).Nodup
  noCycle : ∀ i, ¬ Relation.TransGen (IsPartOf ns) i i
  outputs : ∀ (i : Nat) depth ids c,
    ns[i]? = some (.branch depth ids c) →
      ∃ j rest, ids = j :: rest ∧
        ns[j]? = some (.line c.output)
  places : ∀ (i : Nat) depth line ids,
    ns[i]? = some (.choices depth line ids) →
      ∃ (p : Nat) (items : List Nat), i ∈ items ∧
        (depth = 1 ∧ ns[p]? = some (.container items) ∨
          1 < depth ∧
            ∃ c, ns[p]? = some (.branch (depth - 1) items c))
  ends : ∀ (p : Nat) n depth ids, ns[p]? = some n →
    n.block? = some (depth, ids) →
      ∀ before i after, ids = before ++ i :: after →
        (∃ d line bs, ns[i]? = some (.choices d line bs)) →
          after = [] ∨ ∃ j rest d content,
            after = j :: rest ∧
              ns[j]? = some (.gather d content)
  alternatives :
    (ns.flatMap Node.alternativeNumbers).Nodup

end BranchingStory

------------------------------------------------------------
-- Nodes Of Contents
------------------------------------------------------------

namespace BranchingStory

open scoped List

/- The numbers of all parts that some nodes name. -/
def partsOf
    (ns : List (Nat × Node)) : List Nat :=
  ns.flatMap fun n => n.2.parts

@[simp] theorem partsOf_nil :
    partsOf [] = [] := rfl

@[simp] theorem partsOf_cons
    (n : Nat × Node)
    (ns : List (Nat × Node)) :
    partsOf (n :: ns) = n.2.parts ++ partsOf ns := rfl

@[simp] theorem partsOf_append
    (ns ms : List (Nat × Node)) :
    partsOf (ns ++ ms) = partsOf ns ++ partsOf ms := by
  simp [partsOf]

mutual

/-
  Every number of a part of the content is named once by what
  is in the part, apart from its own.
-/
theorem Item.partsOf_nodes
    (i : Item) :
    partsOf i.nodes ++ [i.id] ~ i.ids := by
  cases i with
  | choices id depth line branches =>
      rw [Item.nodes, Item.ids_choices, partsOf_cons]
      have hBranches := partsOf_branchNodes branches
      apply List.perm_append_comm.trans
      exact (List.perm_append_comm.trans hBranches).cons id
  | line id content => simp [Item.nodes, Node.parts, Item.id]
  | gather id depth content =>
      simp [Item.nodes, Node.parts, Item.id]
  | assign id name value line =>
      simp [Item.nodes, Node.parts, Item.id]

/- The same for a branch. -/
theorem Branch.partsOf_nodes
    (b : Branch) :
    partsOf b.nodes ++ [b.id] ~ b.ids := by
  rcases b with ⟨id, outputId, depth, choice, items⟩
  rw [Branch.nodes, Branch.ids_mk, partsOf_cons, partsOf_cons]
  have hItems := partsOf_itemNodes items
  apply List.Perm.cons outputId
  apply List.perm_append_comm.trans
  exact (List.perm_append_comm.trans hItems).cons id

/- The same for branches. -/
theorem partsOf_branchNodes
    (bs : List Branch) :
    partsOf (branchNodes bs) ++ bs.map Branch.id ~
      branchIds bs := by
  cases bs with
  | nil => simp [branchNodes]
  | cons b bs =>
      have hHead := Branch.partsOf_nodes b
      have hTail := partsOf_branchNodes bs
      rw [branchNodes, branchIds_cons, partsOf_append,
        List.map_cons, ← List.singleton_append]
      exact (perm_append_append_comm _ _ _ _).trans
        (hHead.append hTail)

/- The same for a content. -/
theorem partsOf_itemNodes
    (items : List Item) :
    partsOf (itemNodes items) ++ items.map Item.id ~
      itemIds items := by
  cases items with
  | nil => simp [itemNodes]
  | cons i is =>
      have hHead := Item.partsOf_nodes i
      have hTail := partsOf_itemNodes is
      rw [itemNodes, itemIds_cons, partsOf_append,
        List.map_cons, ← List.singleton_append]
      exact (perm_append_append_comm _ _ _ _).trans
        (hHead.append hTail)

end

/- The same for the content of a stitch. -/
theorem Body.partsOf_nodes
    (b : Body) :
    partsOf b.nodes ++ [b.id] ~ b.ids := by
  rw [Body.nodes, Body.ids_eq, partsOf_cons]
  apply List.perm_append_comm.trans
  exact (List.perm_append_comm.trans
    (partsOf_itemNodes b.items)).cons b.id

/- The same for several contents. -/
theorem partsOf_bodies
    (bs : List Body) :
    partsOf (bs.flatMap Body.nodes) ++ bs.map Body.id ~
      bs.flatMap Body.ids := by
  induction bs with
  | nil => simp
  | cons b bs ih =>
      rw [List.flatMap_cons, List.flatMap_cons,
        partsOf_append, List.map_cons,
        ← List.singleton_append]
      exact (perm_append_append_comm _ _ _ _).trans
        (b.partsOf_nodes.append ih)

mutual

/- A part at any depth is the part or stands in a branch. -/
theorem Item.inner_perm
    (i : Item) :
    i.inner ~
      i :: (i.inner.flatMap Item.branches).flatMap
        Branch.body := by
  cases i with
  | choices id depth line branches =>
      rw [Item.inner, List.flatMap_cons]
      exact (innerOfBranches_perm branches).cons _
  | line id content => simp [Item.inner, Item.branches]
  | gather id depth content =>
      simp [Item.inner, Item.branches]
  | assign id name value line =>
      simp [Item.inner, Item.branches]

/- The same for a branch. -/
theorem Branch.inner_perm
    (b : Branch) :
    b.inner ~
      b.body ++
        (b.inner.flatMap Item.branches).flatMap
          Branch.body := by
  rcases b with ⟨id, outputId, depth, choice, items⟩
  have hItems := innerItems_perm items
  rw [branchesIn] at hItems
  rw [Branch.inner, List.flatMap_cons]
  exact hItems.cons _

/- The same for branches. -/
theorem innerOfBranches_perm
    (bs : List Branch) :
    innerOfBranches bs ~
      (bs ++ (innerOfBranches bs).flatMap
        Item.branches).flatMap Branch.body := by
  cases bs with
  | nil => simp [innerOfBranches]
  | cons b bs =>
      have hHead := Branch.inner_perm b
      have hTail := innerOfBranches_perm bs
      have hOrder :=
        (perm_append_append_comm [b]
          (b.inner.flatMap Item.branches) bs
          ((innerOfBranches bs).flatMap
            Item.branches)).flatMap_right Branch.body
      rw [List.flatMap_append] at hOrder
      rw [innerOfBranches,
        List.flatMap_append (f := Item.branches)]
      exact (hHead.append hTail).trans hOrder

/- The same for a content. -/
theorem innerItems_perm
    (items : List Item) :
    innerItems items ~
      items ++ (branchesIn items).flatMap Branch.body := by
  cases items with
  | nil => simp
  | cons i is =>
      have hHead := Item.inner_perm i
      have hTail := innerItems_perm is
      rw [innerItems_cons, branchesIn_cons,
        List.flatMap_append]
      exact (hHead.append hTail).trans
        (perm_append_append_comm [i] _ is _)

end

/- A part at any depth stands in the content or in a branch. -/
theorem mem_innerItems_iff
    (items : List Item)
    (j : Item) :
    j ∈ innerItems items ↔
      j ∈ items ∨ ∃ b ∈ branchesIn items, j ∈ b.body := by
  rw [(innerItems_perm items).mem_iff, List.mem_append,
    List.mem_flatMap]

end BranchingStory

------------------------------------------------------------
-- Blocks In Shape
------------------------------------------------------------

namespace BranchingStory

/-
  Whether a block of a depth is in shape.  Its sets of choices
  are one level deeper, as are their branches, of which each
  set has one.  A set is the last part or ahead of a gather.
-/
structure BlockFits
    (depth : Nat)
    (items : List Item) : Prop where
  sets : ∀ id d line bs, Item.choices id d line bs ∈ items →
    d = depth + 1 ∧ bs ≠ [] ∧
      ∀ b ∈ bs, b.depth = depth + 1
  ends : ∀ before i after, items = before ++ i :: after →
    i.isChoices = true →
      after = [] ∨ ∃ id d content rest,
        after = .gather id d content :: rest

/- Whether a block and all branches within it are in shape. -/
structure TreeFits
    (depth : Nat)
    (items : List Item) : Prop where
  own : BlockFits depth items
  inner : ∀ b ∈ branchesIn items, BlockFits b.depth b.items

/- The output line of a branch does not matter to its shape. -/
theorem BlockFits.body
    {b : Branch}
    (hFits : BlockFits b.depth b.items) :
    BlockFits b.depth b.body where
  sets := by
    intro id d line bs hMem
    rcases List.mem_cons.mp hMem with hHead | hMem
    · cases hHead
    · exact hFits.sets id d line bs hMem
  ends := by
    intro before i after hSplit hSet
    cases before with
    | nil =>
        cases hSplit
        cases hSet
    | cons j before =>
        exact hFits.ends before i after
          (List.cons.inj hSplit).2 hSet

/- Every branch of a set in a block in shape is below it. -/
theorem TreeFits.depth_pos
    {depth : Nat}
    {items : List Item}
    (hFits : TreeFits depth items)
    {b : Branch}
    (hMem : b ∈ branchesIn items) :
    0 < b.depth := by
  rcases (mem_branchesIn_iff items b).mp hMem with
    ⟨id, d, line, bs, hItem, hBranch⟩
  have hSet {e : Nat} {is : List Item}
      (hBlock : BlockFits e is)
      (hSet : Item.choices id d line bs ∈ is) :
      0 < b.depth := by
    rw [(hBlock.sets id d line bs hSet).2.2 b hBranch]
    exact Nat.succ_pos e
  rcases (mem_innerItems_iff items _).mp hItem with
    hOwn | ⟨c, hInner, hBody⟩
  · exact hSet hFits.own hOwn
  · exact hSet (hFits.inner c hInner).body hBody

end BranchingStory

------------------------------------------------------------
-- Nodes In Their Order
------------------------------------------------------------

namespace BranchingStory

open scoped List

/- The nodes of some contents in the order of their numbers. -/
def arenaOf
    (bs : List Body) : List Node :=
  ((bs.flatMap Body.nodes).mergeSort fun m n =>
    m.1 ≤ n.1).map Prod.snd

/- The nodes of an outline are those of its contents. -/
theorem Outline.nodes_eq
    (o : Outline) :
    o.nodes = arenaOf o.bodies := rfl

variable {bs : List Body}
variable {size : Nat}

/-
  If contents have all numbers below a size, each once, every
  node stands at the place that its number says.
-/
theorem getElem?_arenaOf
    (hIds : bs.flatMap Body.ids ~ List.range size)
    (i : Nat)
    (n : Node) :
    (arenaOf bs)[i]? = some n ↔
      (i, n) ∈ bs.flatMap Body.nodes := by
  rw [arenaOf]
  generalize hSorted :
    ((bs.flatMap Body.nodes).mergeSort fun m n =>
      m.1 ≤ n.1) = ns
  have hPerm : ns ~ bs.flatMap Body.nodes := by
    rw [← hSorted]
    exact List.mergeSort_perm _ _
  have hRange : ns.map Prod.fst = List.range size := by
    have hSame : ns.map Prod.fst ~ List.range size := by
      refine (hPerm.map Prod.fst).trans ?_
      rw [List.map_flatMap]
      exact hIds
    have hSteps :
        ns.Pairwise fun m n => decide (m.1 ≤ n.1) = true := by
      rw [← hSorted]
      apply List.pairwise_mergeSort
      · intro a b c hFirst hSecond
        simp only [decide_eq_true_eq] at *
        omega
      · intro a b
        simp only [Bool.or_eq_true, decide_eq_true_eq]
        omega
    have hOrder :
        (ns.map Prod.fst).Pairwise (· ≤ ·) := by
      rw [List.pairwise_map]
      simpa using hSteps
    exact hSame.eq_of_pairwise
      (fun a b _ _ hLe hGe => Nat.le_antisymm hLe hGe)
      hOrder (List.pairwise_lt_range.imp Nat.le_of_lt)
  -- The number of a node is the place where it stands.
  have hPlace {i : Nat} {p : Nat × Node}
      (hAt : ns[i]? = some p) : p.1 = i := by
    have hFst : (ns.map Prod.fst)[i]? = some p.1 := by
      rw [List.getElem?_map, hAt, Option.map_some]
    rw [hRange] at hFst
    rcases List.getElem?_eq_some_iff.mp hFst with
      ⟨hBound, hEq⟩
    rw [List.getElem_range] at hEq
    exact hEq.symm
  rw [List.getElem?_map, Option.map_eq_some_iff,
    ← hPerm.mem_iff]
  constructor
  · rintro ⟨p, hAt, rfl⟩
    have hMem := List.mem_of_getElem? hAt
    rwa [← hPlace hAt]
  · intro hMem
    rcases List.getElem?_of_mem hMem with ⟨k, hAt⟩
    have hSame := hPlace hAt
    simp only at hSame
    rw [hSame]
    exact ⟨(i, n), hAt, rfl⟩

/- The order of the contents does not matter. -/
theorem arenaOf_eq_of_perm
    {cs : List Body}
    (hIds : bs.flatMap Body.ids ~ List.range size)
    (hPerm : bs ~ cs) :
    arenaOf bs = arenaOf cs := by
  apply List.ext_getElem?
  intro i
  have hIds' : cs.flatMap Body.ids ~ List.range size :=
    (hPerm.symm.flatMap_right _).trans hIds
  have hNodes := hPerm.flatMap_right Body.nodes
  ext n
  rw [getElem?_arenaOf hIds, getElem?_arenaOf hIds',
    hNodes.mem_iff]

/- What nodes are listed with, whatever their order. -/
theorem flatMap_arenaOf
    {α : Type}
    (f : Node → List α)
    (bs : List Body) :
    (arenaOf bs).flatMap f ~
      (bs.flatMap Body.nodes).flatMap fun n => f n.2 := by
  rw [arenaOf, List.flatMap_map]
  exact (List.mergeSort_perm _ _).flatMap_right _

end BranchingStory

------------------------------------------------------------
-- Arenas Of Contents
------------------------------------------------------------

namespace BranchingStory

open scoped List

section Contents

variable {bs : List Body}
variable {size : Nat}
variable (hIds : bs.flatMap Body.ids ~ List.range size)

include hIds

/- A part of a content at any depth is a node. -/
theorem item_at
    {body : Body}
    (hBody : body ∈ bs)
    {i : Item}
    (hItem : i ∈ innerItems body.items) :
    (arenaOf bs)[i.id]? = some i.node := by
  refine (getElem?_arenaOf hIds _ _).mpr
    (List.mem_flatMap.mpr ⟨body, hBody, ?_⟩)
  exact List.mem_cons_of_mem _
    ((mem_itemNodes_iff _ _).mpr
      (Or.inl (List.mem_map_of_mem hItem)))

/- A branch of a content at any depth is a node. -/
theorem branch_at
    {body : Body}
    (hBody : body ∈ bs)
    {b : Branch}
    (hBranch : b ∈ branchesIn body.items) :
    (arenaOf bs)[b.id]? = some b.node := by
  refine (getElem?_arenaOf hIds _ _).mpr
    (List.mem_flatMap.mpr ⟨body, hBody, ?_⟩)
  exact List.mem_cons_of_mem _
    ((mem_itemNodes_iff _ _).mpr
      (Or.inr (List.mem_map_of_mem hBranch)))

/- The content of a stitch is a node. -/
theorem body_at
    {body : Body}
    (hBody : body ∈ bs) :
    (arenaOf bs)[body.id]? =
      some (.container (body.items.map Item.id)) :=
  (getElem?_arenaOf hIds _ _).mpr
    (List.mem_flatMap.mpr ⟨body, hBody, List.mem_cons_self⟩)

/- There are no other nodes. -/
theorem node_cases
    {i : Nat}
    {n : Node}
    (hAt : (arenaOf bs)[i]? = some n) :
    ∃ body ∈ bs,
      i = body.id ∧
          n = .container (body.items.map Item.id) ∨
        (∃ j ∈ innerItems body.items, i = j.id ∧ n = j.node) ∨
        ∃ b ∈ branchesIn body.items, i = b.id ∧ n = b.node := by
  rcases
      List.mem_flatMap.mp
        ((getElem?_arenaOf hIds i n).mp hAt) with
    ⟨body, hBody, hMem⟩
  refine ⟨body, hBody, ?_⟩
  rcases List.mem_cons.mp hMem with hOwn | hMem
  · cases hOwn
    exact Or.inl ⟨rfl, rfl⟩
  · rcases (mem_itemNodes_iff _ _).mp hMem with hMem | hMem
    · rcases List.mem_map.mp hMem with ⟨j, hItem, hSame⟩
      cases hSame
      exact Or.inr (Or.inl ⟨j, hItem, rfl, rfl⟩)
    · rcases List.mem_map.mp hMem with ⟨b, hBranch, hSame⟩
      cases hSame
      exact Or.inr (Or.inr ⟨b, hBranch, rfl, rfl⟩)

/- The nodes of sets of choices are sets of choices. -/
theorem choices_cases
    {i depth line : Nat}
    {ids : List Nat}
    (hAt :
      (arenaOf bs)[i]? = some (.choices depth line ids)) :
    ∃ body ∈ bs, ∃ branches,
      Item.choices i depth line branches ∈
          innerItems body.items ∧
        ids = branches.map Branch.id := by
  rcases node_cases hIds hAt with
    ⟨body, hBody, ⟨_, hNode⟩ | ⟨j, hItem, rfl, hNode⟩ |
      ⟨b, _, _, hNode⟩⟩
  · cases hNode
  · cases j with
    | choices id d l branches =>
        cases hNode
        exact ⟨body, hBody, branches, hItem, rfl⟩
    | line id content => cases hNode
    | gather id d content => cases hNode
    | assign id name value l => cases hNode
  · cases hNode

variable (hFits : ∀ body ∈ bs, TreeFits 0 body.items)

include hFits

/- The parts of a block are those of a block in shape. -/
theorem block_cases
    {i depth : Nat}
    {n : Node}
    {ids : List Nat}
    (hAt : (arenaOf bs)[i]? = some n)
    (hBlock : n.block? = some (depth, ids)) :
    ∃ items, ids = items.map Item.id ∧
      BlockFits depth items ∧
        ∀ j ∈ items, (arenaOf bs)[j.id]? = some j.node := by
  rcases node_cases hIds hAt with
    ⟨body, hBody, ⟨_, rfl⟩ | ⟨j, hItem, _, rfl⟩ |
      ⟨b, hBranch, _, rfl⟩⟩
  · cases hBlock
    refine ⟨body.items, rfl, (hFits body hBody).own, ?_⟩
    exact fun j hMem =>
      item_at hIds hBody (subset_innerItems _ hMem)
  · cases j <;> cases hBlock
  · cases hBlock
    refine ⟨b.body, rfl,
      ((hFits body hBody).inner b hBranch).body, ?_⟩
    exact fun j hMem =>
      item_at hIds hBody
        (innerItems_body_subset hBranch
          (subset_innerItems _ hMem))

/-
  A set of choices stands in a block that is in shape, so that
  its depth is one more, and it has branches.
-/
theorem choices_place
    {i depth line : Nat}
    {ids : List Nat}
    (hAt :
      (arenaOf bs)[i]? = some (.choices depth line ids)) :
    ∃ branches, ids = branches.map Branch.id ∧
      branches ≠ [] ∧
      (∀ b ∈ branches, b.depth = depth ∧
        (arenaOf bs)[b.id]? = some b.node) ∧
      ∃ (p : Nat) (items : List Nat), i ∈ items ∧
        (depth = 1 ∧
            (arenaOf bs)[p]? = some (.container items) ∨
          1 < depth ∧ ∃ c, (arenaOf bs)[p]? =
            some (.branch (depth - 1) items c)) := by
  rcases choices_cases hIds hAt with
    ⟨body, hBody, branches, hItem, rfl⟩
  have hTree := hFits body hBody
  have hBranches {e : Nat} {is : List Item}
      (hBlock : BlockFits e is)
      (hSet : Item.choices i depth line branches ∈ is) :
      depth = e + 1 ∧ branches ≠ [] ∧
        ∀ b ∈ branches, b.depth = depth ∧
          (arenaOf bs)[b.id]? = some b.node := by
    rcases hBlock.sets i depth line branches hSet with
      ⟨rfl, hSome, hDepths⟩
    refine ⟨rfl, hSome, fun b hMem => ⟨hDepths b hMem, ?_⟩⟩
    exact branch_at hIds hBody
      ((mem_branchesIn_iff _ b).mpr
        ⟨i, _, line, branches, hItem, hMem⟩)
  rcases (mem_innerItems_iff _ _).mp hItem with
    hOwn | ⟨c, hInner, hIn⟩
  · rcases hBranches hTree.own hOwn with
      ⟨rfl, hSome, hAll⟩
    exact ⟨branches, rfl, hSome, hAll, body.id, _,
      List.mem_map_of_mem (f := Item.id) hOwn,
      Or.inl ⟨rfl, body_at hIds hBody⟩⟩
  · rcases hBranches (hTree.inner c hInner).body hIn with
      ⟨rfl, hSome, hAll⟩
    have hPositive := hTree.depth_pos hInner
    refine ⟨branches, rfl, hSome, hAll, c.id, _,
      List.mem_map_of_mem (f := Item.id) hIn,
      Or.inr ⟨by omega, c.choice, ?_⟩⟩
    exact branch_at hIds hBody hInner

/- What has parts is deeper than what it is part of. -/
theorem level_lt
    {i j k : Nat}
    (hPart : IsPartOf (arenaOf bs) j i)
    (hParts : IsPartOf (arenaOf bs) k j) :
    ∀ n m, (arenaOf bs)[i]? = some n →
      (arenaOf bs)[j]? = some m → n.level < m.level := by
  rcases hPart with ⟨n, hAt, hMem⟩
  rcases hParts with ⟨m, hAt', hMem'⟩
  intro n' m' hSame hSame'
  cases Option.some.inj (hAt.symm.trans hSame)
  cases Option.some.inj (hAt'.symm.trans hSame')
  cases hBlock : n.block? with
  | some block =>
      rcases block with ⟨depth, ids⟩
      rcases block_cases hIds hFits hAt hBlock with
        ⟨items, rfl, hShape, hItems⟩
      have hLevel : n.level = 2 * depth ∧
          n.parts = items.map Item.id := by
        cases n <;> cases hBlock <;> exact ⟨rfl, rfl⟩
      rw [hLevel.2] at hMem
      rcases List.mem_map.mp hMem with ⟨i', hItem, rfl⟩
      have hNode :=
        Option.some.inj (hAt'.symm.trans (hItems i' hItem))
      rw [hNode] at hMem' ⊢
      cases i' with
      | choices id d line branches =>
          rcases hShape.sets id d line branches hItem with
            ⟨rfl, _⟩
          rw [hLevel.1, Item.node, Node.level]
          omega
      | line id content => cases hMem'
      | gather id d content => cases hMem'
      | assign id name value line => cases hMem'
  | none =>
      cases n with
      | choices depth line ids =>
          rcases choices_place hIds hFits hAt with
            ⟨branches, rfl, _, hAll, p, items, _, hPlace⟩
          rcases List.mem_map.mp hMem with ⟨b, hBranch, rfl⟩
          rcases hAll b hBranch with ⟨hDepth, hNode⟩
          have hSame :=
            Option.some.inj (hAt'.symm.trans hNode)
          rw [hSame, Branch.node, Node.level, Node.level,
            hDepth]
          rcases hPlace with ⟨hOne, _⟩ | ⟨hMore, _⟩ <;> omega
      | container ids => cases hBlock
      | branch d ids c => cases hBlock
      | line content => cases hMem
      | gather d content => cases hMem
      | assign name value line => cases hMem

/- No node is part of itself by any way. -/
theorem not_partOf_self
    (i : Nat) :
    ¬ Relation.TransGen (IsPartOf (arenaOf bs)) i i := by
  -- Every step outward leads to a level further out.
  have hLevels {j k : Nat}
      (hWay : Relation.TransGen (IsPartOf (arenaOf bs)) j k)
      (hParts : ∃ l, IsPartOf (arenaOf bs) l j) :
      ∀ n m, (arenaOf bs)[k]? = some n →
        (arenaOf bs)[j]? = some m → n.level < m.level := by
    rcases hParts with ⟨l, hParts⟩
    induction hWay with
    | single hStep =>
        exact level_lt hIds hFits hStep hParts
    | @tail k' k hWay hStep ih =>
        rcases Relation.TransGen.tail'_iff.mp hWay with
          ⟨h, _, hLast⟩
        intro n m hAt hAt'
        rcases hLast with ⟨n', hAt'', hMem⟩
        exact Nat.lt_trans
          (level_lt hIds hFits hStep ⟨n', hAt'', hMem⟩ n n'
            hAt hAt'')
          (ih n' m hAt'' hAt')
  intro hWay
  rcases Relation.TransGen.tail'_iff.mp hWay with
    ⟨h, _, hLast⟩
  have hLess := hLevels hWay ⟨h, hLast⟩
  rcases hLast with ⟨n, hAt, hMem⟩
  exact Nat.lt_irrefl _ (hLess n n hAt hAt)

/-
  Contents in shape, with numbers of their own and alternatives
  that have numbers of their own, make up a sound arena.
-/
theorem arenaIsSound_of_fits
    (hAlternatives :
      ((alternativesOf (bs.flatMap Body.leaves)).map
        Prod.fst).Nodup) :
    ArenaIsSound (arenaOf bs) where
  items := by
    intro i n depth ids hAt hBlock j hMem
    rcases block_cases hIds hFits hAt hBlock with
      ⟨items, rfl, _, hItems⟩
    rcases List.mem_map.mp hMem with ⟨j', hItem, rfl⟩
    refine ⟨j'.node, hItems j' hItem, ?_⟩
    cases j' <;> rfl
  branches := by
    intro i depth line ids hAt
    rcases choices_place hIds hFits hAt with
      ⟨branches, rfl, hSome, hAll, _⟩
    refine ⟨fun hNil => hSome (List.map_eq_nil_iff.mp hNil),
      ?_⟩
    intro j hMem
    rcases List.mem_map.mp hMem with ⟨b, hBranch, rfl⟩
    rcases hAll b hBranch with ⟨rfl, hNode⟩
    exact ⟨b.body.map Item.id, b.choice, hNode⟩
  oneParent := by
    have hAll :=
      ((partsOf_bodies bs).trans hIds).nodup_iff.mpr
        List.nodup_range
    exact (flatMap_arenaOf Node.parts bs).nodup_iff.mpr
      (List.nodup_append.mp hAll).1
  noCycle := not_partOf_self hIds hFits
  outputs := by
    intro i depth ids c hAt
    rcases node_cases hIds hAt with
      ⟨body, hBody, ⟨_, hNode⟩ | ⟨j, _, _, hNode⟩ |
        ⟨b, hBranch, _, hNode⟩⟩
    · cases hNode
    · cases j <;> cases hNode
    · cases hNode
      refine ⟨b.outputId, b.items.map Item.id, rfl, ?_⟩
      exact item_at hIds hBody
        (innerItems_body_subset hBranch
          (subset_innerItems b.body List.mem_cons_self))
  places := by
    intro i depth line ids hAt
    rcases choices_place hIds hFits hAt with
      ⟨_, _, _, _, hPlace⟩
    exact hPlace
  ends := by
    intro p n depth ids hAt hBlock before i after hSplit hSet
    rcases hSet with ⟨d, line, branchIds, hChoices⟩
    rcases block_cases hIds hFits hAt hBlock with
      ⟨items, rfl, hShape, hItems⟩
    rcases List.map_eq_append_iff.mp hSplit with
      ⟨is, js, rfl, rfl, hRest⟩
    rcases List.map_eq_cons_iff.mp hRest with
      ⟨j, js, rfl, rfl, rfl⟩
    have hNode :=
      Option.some.inj
        ((hItems j (by simp)).symm.trans hChoices)
    have hIsSet : j.isChoices = true := by
      cases j <;> first | rfl | cases hNode
    rcases hShape.ends is j js rfl hIsSet with
      rfl | ⟨id, d', content, rest, rfl⟩
    · exact Or.inl rfl
    · exact Or.inr ⟨id, rest.map Item.id, d', content, rfl,
        hItems (.gather id d' content) (by simp)⟩
  alternatives := by
    apply (flatMap_arenaOf Node.alternativeNumbers
      bs).nodup_iff.mpr
    have hSame :
        (bs.flatMap Body.nodes).flatMap
            (fun n => n.2.alternativeNumbers) =
          (alternativesOf (bs.flatMap Body.leaves)).map
            Prod.fst := by
      simp only [alternativesOf, Body.leaves, leavesOf,
        List.map_flatMap, List.flatMap_assoc,
        List.flatMap_map]
      rfl
    rw [hSame]
    exact hAlternatives

end Contents

end BranchingStory
