import BranchingStory.Outline.Nodes
import BranchingStory.Proofs.Tables
import Mathlib.Data.List.Nodup
import Mathlib.Data.List.Pairwise
import Mathlib.Data.List.Perm.Subperm

/-
  This file takes the content of an outline apart: into its
  parts at any depth, its branches and the numbers of all of
  them.  Where no number stands twice, every block and every
  branch is found under its number.

  Key definitions include:
    * `innerItems`
    * `branchesIn`
    * `itemIds`
    * `Outline.branches`
    * `Outline.ids`

  Key theorems include:
    * `itemNodes_perm`
    * `branchIds_subperm`
    * `branchIn?_eq_some`
    * `branchIn?_of_mem`
    * `innerItems_body_subset`
    * `Outline.block?_body`
    * `Outline.block?_branch`
    * `Outline.hasAddress_iff`
    * `Outline.findPlace?_congr`
-/

------------------------------------------------------------
-- Parts At Any Depth
------------------------------------------------------------

namespace BranchingStory

mutual

/- A part of the content, and every part within it. -/
def Item.inner : Item → List Item
  | .choices id depth l branches =>
      .choices id depth l branches :: innerOfBranches branches
  | i => [i]

/- The parts of a branch at any depth, its output first. -/
def Branch.inner : Branch → List Item
  | .mk _ outputId _ choice items =>
      .line outputId choice.output :: innerItems items

/- The parts of branches at any depth. -/
def innerOfBranches : List Branch → List Item
  | [] => []
  | b :: bs => Branch.inner b ++ innerOfBranches bs

/- The parts of a content at any depth. -/
def innerItems : List Item → List Item
  | [] => []
  | i :: is => Item.inner i ++ innerItems is

end

/- The branches that a part of the content offers itself. -/
def Item.branches : Item → List Branch
  | .choices _ _ _ branches => branches
  | _ => []

/- The branches of a content at any depth. -/
def branchesIn
    (items : List Item) : List Branch :=
  (innerItems items).flatMap Item.branches

/- The numbers of a part of the content and all within it. -/
def Item.ids
    (i : Item) : List Nat :=
  i.nodes.map Prod.fst

/- The numbers of a branch and all within it. -/
def Branch.ids
    (b : Branch) : List Nat :=
  b.nodes.map Prod.fst

/- The numbers of branches and all within them. -/
def branchIds
    (bs : List Branch) : List Nat :=
  (branchNodes bs).map Prod.fst

/- The numbers of a content at any depth. -/
def itemIds
    (items : List Item) : List Nat :=
  (itemNodes items).map Prod.fst

/- The numbers of a whole content, its own first. -/
def Body.ids
    (b : Body) : List Nat :=
  b.nodes.map Prod.fst

namespace Outline

/- All branches of an outline. -/
def branches
    (o : Outline) : List Branch :=
  o.bodies.flatMap fun b => branchesIn b.items

/- All numbers of an outline. -/
def ids
    (o : Outline) : List Nat :=
  o.numberedNodes.map Prod.fst

end Outline

end BranchingStory

------------------------------------------------------------
-- Numbers Of Parts
------------------------------------------------------------

namespace BranchingStory

@[simp] theorem itemIds_nil :
    itemIds [] = [] := by
  simp [itemIds, itemNodes]

@[simp] theorem itemIds_cons
    (i : Item)
    (is : List Item) :
    itemIds (i :: is) = i.ids ++ itemIds is := by
  simp [itemIds, Item.ids, itemNodes]

@[simp] theorem branchIds_nil :
    branchIds [] = [] := by
  simp [branchIds, branchNodes]

@[simp] theorem branchIds_cons
    (b : Branch)
    (bs : List Branch) :
    branchIds (b :: bs) = b.ids ++ branchIds bs := by
  simp [branchIds, Branch.ids, branchNodes]

@[simp] theorem Branch.ids_mk
    (id outputId depth : Nat)
    (choice : Choice)
    (items : List Item) :
    (Branch.mk id outputId depth choice items).ids =
      outputId :: id :: itemIds items := by
  simp [Branch.ids, Branch.nodes, itemIds]

@[simp] theorem Item.ids_line
    (id : Nat)
    (content : ContentLine) :
    (Item.line id content).ids = [id] := by
  simp [Item.ids, Item.nodes]

@[simp] theorem Item.ids_gather
    (id depth : Nat)
    (content : Option ContentLine) :
    (Item.gather id depth content).ids = [id] := by
  simp [Item.ids, Item.nodes]

@[simp] theorem Item.ids_assign
    (id : Nat)
    (name : String)
    (value : Expr)
    (line : Nat) :
    (Item.assign id name value line).ids = [id] := by
  simp [Item.ids, Item.nodes]

@[simp] theorem Item.ids_choices
    (id depth line : Nat)
    (branches : List Branch) :
    (Item.choices id depth line branches).ids =
      id :: branchIds branches := by
  simp [Item.ids, Item.nodes, branchIds]

@[simp] theorem Body.ids_eq
    (b : Body) :
    b.ids = b.id :: itemIds b.items := by
  simp [Body.ids, Body.nodes, itemIds]

theorem Outline.ids_eq
    (o : Outline) :
    o.ids = o.bodies.flatMap Body.ids := by
  simp only [Outline.ids, Outline.numberedNodes,
    List.map_flatMap]
  rfl

end BranchingStory

------------------------------------------------------------
-- Parts Within Parts
------------------------------------------------------------

namespace BranchingStory

@[simp] theorem innerItems_nil :
    innerItems [] = [] := by
  simp [innerItems]

@[simp] theorem innerItems_cons
    (i : Item)
    (is : List Item) :
    innerItems (i :: is) = i.inner ++ innerItems is := by
  simp [innerItems]

/- The parts of branches are those of each of them. -/
theorem innerOfBranches_eq
    (bs : List Branch) :
    innerOfBranches bs = bs.flatMap Branch.inner := by
  induction bs with
  | nil => simp [innerOfBranches]
  | cons b bs ih => simp [innerOfBranches, ih]

/- The parts of a branch are those of its body. -/
theorem innerItems_body
    (b : Branch) :
    innerItems b.body = b.inner := by
  rcases b with ⟨id, outputId, depth, choice, items⟩
  simp [Branch.body, Branch.inner, Item.inner,
    Branch.outputId, Branch.choice, Branch.items]

/- A part of the content is among its own parts. -/
theorem Item.self_mem_inner
    (i : Item) :
    i ∈ i.inner := by
  cases i <;> simp [Item.inner]

/- What a content consists of is among its parts. -/
theorem subset_innerItems
    (items : List Item) :
    items ⊆ innerItems items := by
  induction items with
  | nil => simp
  | cons i is ih =>
      intro j hMem
      rw [innerItems_cons]
      rcases List.mem_cons.mp hMem with rfl | hMem
      · exact List.mem_append_left _ j.self_mem_inner
      · exact List.mem_append_right _ (ih hMem)

mutual

/- The parts of a part of the parts are among the parts. -/
theorem Item.inner_subset
    (i j : Item)
    (hMem : j ∈ i.inner) :
    j.inner ⊆ i.inner := by
  cases i with
  | choices id depth line branches =>
      rw [Item.inner] at hMem
      rcases List.mem_cons.mp hMem with rfl | hMem
      · exact fun k hInner => hInner
      · intro k hInner
        rw [Item.inner]
        exact List.mem_cons_of_mem _
          (innerOfBranches_subset branches j hMem hInner)
  | line id content =>
      rw [Item.inner, List.mem_singleton] at hMem
      · subst hMem
        exact fun k hInner => hInner
      · simp
  | gather id depth content =>
      rw [Item.inner, List.mem_singleton] at hMem
      · subst hMem
        exact fun k hInner => hInner
      · simp
  | assign id name value line =>
      rw [Item.inner, List.mem_singleton] at hMem
      · subst hMem
        exact fun k hInner => hInner
      · simp

/- The same for the parts of a branch. -/
theorem Branch.inner_subset
    (b : Branch)
    (j : Item)
    (hMem : j ∈ b.inner) :
    j.inner ⊆ b.inner := by
  rcases b with ⟨id, outputId, depth, choice, items⟩
  rw [Branch.inner] at hMem ⊢
  rcases List.mem_cons.mp hMem with rfl | hMem
  · intro k hInner
    rw [Item.inner] at hInner
    · rw [List.mem_singleton] at hInner
      subst hInner
      exact List.mem_cons_self
    · simp
  · intro k hInner
    exact List.mem_cons_of_mem _
      (innerItems_subset items j hMem hInner)

/- The same for the parts of branches. -/
theorem innerOfBranches_subset
    (bs : List Branch)
    (j : Item)
    (hMem : j ∈ innerOfBranches bs) :
    j.inner ⊆ innerOfBranches bs := by
  cases bs with
  | nil => simp [innerOfBranches] at hMem
  | cons b bs =>
      rw [innerOfBranches] at hMem ⊢
      intro k hInner
      rcases List.mem_append.mp hMem with hMem | hMem
      · exact List.mem_append_left _
          (Branch.inner_subset b j hMem hInner)
      · exact List.mem_append_right _
          (innerOfBranches_subset bs j hMem hInner)

/- The same for the parts of a content. -/
theorem innerItems_subset
    (items : List Item)
    (j : Item)
    (hMem : j ∈ innerItems items) :
    j.inner ⊆ innerItems items := by
  cases items with
  | nil => simp at hMem
  | cons i is =>
      rw [innerItems_cons] at hMem ⊢
      intro k hInner
      rcases List.mem_append.mp hMem with hMem | hMem
      · exact List.mem_append_left _
          (Item.inner_subset i j hMem hInner)
      · exact List.mem_append_right _
          (innerItems_subset is j hMem hInner)

end

end BranchingStory

------------------------------------------------------------
-- Branches
------------------------------------------------------------

namespace BranchingStory

/- A branch stands in one of the sets of choices. -/
theorem mem_branchesIn_iff
    (items : List Item)
    (b : Branch) :
    b ∈ branchesIn items ↔
      ∃ id depth line branches,
        Item.choices id depth line branches ∈
            innerItems items ∧
          b ∈ branches := by
  rw [branchesIn, List.mem_flatMap]
  constructor
  · rintro ⟨i, hItem, hBranch⟩
    cases i with
    | choices id depth line branches =>
        exact ⟨id, depth, line, branches, hItem, hBranch⟩
    | line id content => cases hBranch
    | gather id depth content => cases hBranch
    | assign id name value line => cases hBranch
  · rintro ⟨id, depth, line, branches, hItem, hBranch⟩
    exact ⟨_, hItem, hBranch⟩

@[simp] theorem branchesIn_nil :
    branchesIn [] = [] := by
  simp [branchesIn]

@[simp] theorem branchesIn_cons
    (i : Item)
    (is : List Item) :
    branchesIn (i :: is) =
      i.inner.flatMap Item.branches ++ branchesIn is := by
  simp [branchesIn]

/-
  What a branch consists of is part of the content that the
  branch stands in.
-/
theorem innerItems_body_subset
    {items : List Item}
    {b : Branch}
    (hMem : b ∈ branchesIn items) :
    innerItems b.body ⊆ innerItems items := by
  rcases (mem_branchesIn_iff items b).mp hMem with
    ⟨id, depth, line, branches, hItem, hBranch⟩
  intro j hInner
  apply innerItems_subset items _ hItem
  rw [Item.inner, innerOfBranches_eq]
  rw [innerItems_body] at hInner
  exact List.mem_cons_of_mem _
    (List.mem_flatMap.mpr ⟨b, hBranch, hInner⟩)

/- The branches within a branch stand in the same content. -/
theorem branchesIn_body_subset
    {items : List Item}
    {b : Branch}
    (hMem : b ∈ branchesIn items) :
    branchesIn b.body ⊆ branchesIn items := by
  intro c hInner
  rw [branchesIn, List.mem_flatMap] at hInner ⊢
  rcases hInner with ⟨i, hItem, hBranch⟩
  exact ⟨i, innerItems_body_subset hMem hItem, hBranch⟩

/- The branches of a set stand in the content of the set. -/
theorem subset_branchesIn
    {items : List Item}
    {id depth line : Nat}
    {branches : List Branch}
    (hMem :
      Item.choices id depth line branches ∈ items) :
    branches ⊆ branchesIn items := by
  intro b hBranch
  exact (mem_branchesIn_iff items b).mpr
    ⟨id, depth, line, branches,
      subset_innerItems items hMem, hBranch⟩

end BranchingStory

------------------------------------------------------------
-- Nodes Of Parts
------------------------------------------------------------

namespace BranchingStory

open scoped List

/- A part of the content as a numbered node. -/
def Item.numbered
    (i : Item) : Nat × Node :=
  (i.id, i.node)

/- A branch as a numbered node. -/
def Branch.numbered
    (b : Branch) : Nat × Node :=
  (b.id, b.node)

/- Two lists in two pieces each, with the inner ones swapped. -/
theorem perm_append_append_comm
    {α : Type}
    (as bs cs ds : List α) :
    (as ++ bs) ++ (cs ++ ds) ~ (as ++ cs) ++ (bs ++ ds) := by
  rw [List.append_assoc, List.append_assoc]
  exact (List.perm_append_comm_assoc bs cs ds).append_left as

mutual

/-
  The nodes of a part of the content are the parts at any depth
  and the branches among them, in another order.
-/
theorem Item.nodes_perm
    (i : Item) :
    i.nodes ~
      i.inner.map Item.numbered ++
        (i.inner.flatMap Item.branches).map
          Branch.numbered := by
  cases i with
  | choices id depth line branches =>
      rw [Item.nodes, Item.inner, List.map_cons,
        List.flatMap_cons]
      exact (branchNodes_perm branches).cons _
  | line id content =>
      simp [Item.nodes, Item.inner, Item.branches,
        Item.numbered, Item.id, Item.node]
  | gather id depth content =>
      simp [Item.nodes, Item.inner, Item.branches,
        Item.numbered, Item.id, Item.node]
  | assign id name value line =>
      simp [Item.nodes, Item.inner, Item.branches,
        Item.numbered, Item.id, Item.node]

/- The same for a branch, which is a node itself. -/
theorem Branch.nodes_perm
    (b : Branch) :
    b.nodes ~
      b.inner.map Item.numbered ++
        (b :: b.inner.flatMap Item.branches).map
          Branch.numbered := by
  rcases b with ⟨id, outputId, depth, choice, items⟩
  have hItems := itemNodes_perm items
  rw [branchesIn] at hItems
  rw [Branch.nodes, Branch.inner, List.map_cons, List.map_cons,
    List.flatMap_cons]
  exact ((hItems.cons _).trans List.perm_middle.symm).cons _

/- The same for branches. -/
theorem branchNodes_perm
    (bs : List Branch) :
    branchNodes bs ~
      (innerOfBranches bs).map Item.numbered ++
        (bs ++ (innerOfBranches bs).flatMap
          Item.branches).map Branch.numbered := by
  cases bs with
  | nil => simp [branchNodes, innerOfBranches]
  | cons b bs =>
      have hHead := Branch.nodes_perm b
      have hTail := branchNodes_perm bs
      rw [branchNodes, innerOfBranches, List.flatMap_append]
      apply (hHead.append hTail).trans
      apply (perm_append_append_comm _ _ _ _).trans
      rw [← List.map_append, ← List.map_append]
      exact List.Perm.append_left _
        ((perm_append_append_comm [b] _ bs _).map _)

/- The same for a content. -/
theorem itemNodes_perm
    (items : List Item) :
    itemNodes items ~
      (innerItems items).map Item.numbered ++
        (branchesIn items).map Branch.numbered := by
  cases items with
  | nil => simp [itemNodes]
  | cons i is =>
      have hHead := Item.nodes_perm i
      have hTail := itemNodes_perm is
      rw [itemNodes, innerItems_cons, branchesIn_cons,
        List.map_append, List.map_append]
      exact (hHead.append hTail).trans
        (perm_append_append_comm _ _ _ _)

end

/- The nodes of a content are its parts and its branches. -/
theorem mem_itemNodes_iff
    (items : List Item)
    (n : Nat × Node) :
    n ∈ itemNodes items ↔
      n ∈ (innerItems items).map Item.numbered ∨
        n ∈ (branchesIn items).map Branch.numbered := by
  rw [(itemNodes_perm items).mem_iff, List.mem_append]

/- The nodes of a part are among those of its content. -/
theorem nodes_subset_itemNodes
    {items : List Item}
    {i : Item}
    (hMem : i ∈ innerItems items) :
    i.nodes ⊆ itemNodes items := by
  have hInner := innerItems_subset items i hMem
  intro n hNode
  rw [mem_itemNodes_iff]
  rcases List.mem_append.mp (i.nodes_perm.subset hNode) with
    hPart | hBranch
  · exact Or.inl (List.map_subset _ hInner hPart)
  · rcases List.mem_map.mp hBranch with ⟨b, hMem, rfl⟩
    rcases List.mem_flatMap.mp hMem with ⟨j, hPart, hOwn⟩
    exact Or.inr (List.mem_map_of_mem
      (List.mem_flatMap.mpr ⟨j, hInner hPart, hOwn⟩))

end BranchingStory

------------------------------------------------------------
-- Numbers Of Branches
------------------------------------------------------------

namespace BranchingStory

open scoped List

/-
  Every branch within a content has a number of its own among
  the numbers of the content.
-/
theorem branchIds_subperm
    (items : List Item) :
    (branchesIn items).map Branch.id <+~ itemIds items := by
  have hPerm := (itemNodes_perm items).map Prod.fst
  rw [List.map_append, List.map_map, List.map_map] at hPerm
  exact (List.sublist_append_right _ _).subperm.trans
    hPerm.symm.subperm

/- The number of a branch is one of those of its content. -/
theorem id_mem_itemIds
    {items : List Item}
    {b : Branch}
    (hMem : b ∈ branchesIn items) :
    b.id ∈ itemIds items :=
  (branchIds_subperm items).subset
    (List.mem_map_of_mem hMem)

/- Where no number stands twice, no branch does. -/
theorem nodup_branchesIn
    {items : List Item}
    (hNodup : (itemIds items).Nodup) :
    ((branchesIn items).map Branch.id).Nodup := by
  rcases branchIds_subperm items with ⟨ids, hPerm, hSublist⟩
  exact hPerm.nodup_iff.mp (hNodup.sublist hSublist)

/- Where no number stands twice, a number tells a branch. -/
theorem eq_of_branchId_eq
    {items : List Item}
    (hNodup : (itemIds items).Nodup)
    {b c : Branch}
    (hMem : b ∈ branchesIn items)
    (hMem' : c ∈ branchesIn items)
    (hId : b.id = c.id) :
    b = c :=
  List.inj_on_of_nodup_map (nodup_branchesIn hNodup) hMem
    hMem' hId

/- Where no number stands twice, none does in a set. -/
theorem nodup_branchIds
    {items : List Item}
    (hNodup : (itemIds items).Nodup)
    {id depth line : Nat}
    {branches : List Branch}
    (hMem :
      .choices id depth line branches ∈ innerItems items) :
    (branches.map Branch.id).Nodup := by
  have hAll := nodup_branchesIn hNodup
  rw [branchesIn, List.map_flatMap, List.nodup_flatMap]
    at hAll
  exact hAll.1 _ hMem

end BranchingStory

------------------------------------------------------------
-- Finding Branches
------------------------------------------------------------

namespace BranchingStory

mutual

/- A branch that is found stands in the part searched. -/
theorem Item.branch?_eq_some
    (id : Nat)
    (i : Item)
    {b : Branch}
    (hFound : i.branch? id = some b) :
    b.id = id ∧ b ∈ i.inner.flatMap Item.branches := by
  cases i with
  | choices id' depth line branches =>
      rw [Item.branch?] at hFound
      rcases branchAmong?_eq_some id branches hFound with
        ⟨hId, hMem⟩
      refine ⟨hId, ?_⟩
      rw [Item.inner, List.flatMap_cons]
      exact List.mem_append.mpr hMem
  | line id' content => simp [Item.branch?] at hFound
  | gather id' depth content =>
      simp [Item.branch?] at hFound
  | assign id' name value line =>
      simp [Item.branch?] at hFound

/- The same for a branch, which may be found itself. -/
theorem Branch.branch?_eq_some
    (id : Nat)
    (c : Branch)
    {b : Branch}
    (hFound : c.branch? id = some b) :
    b.id = id ∧
      (b = c ∨ b ∈ c.inner.flatMap Item.branches) := by
  rcases c with ⟨id', outputId, depth, choice, items⟩
  rw [Branch.branch?] at hFound
  split at hFound
  · next hId =>
      cases hFound
      exact ⟨hId, Or.inl rfl⟩
  · rcases branchIn?_eq_some id items hFound with ⟨hId, hMem⟩
    rw [branchesIn] at hMem
    refine ⟨hId, Or.inr ?_⟩
    rw [Branch.inner, List.flatMap_cons]
    exact List.mem_append_right _ hMem

/- The same for branches. -/
theorem branchAmong?_eq_some
    (id : Nat)
    (bs : List Branch)
    {b : Branch}
    (hFound : branchAmong? id bs = some b) :
    b.id = id ∧
      (b ∈ bs ∨
        b ∈ (innerOfBranches bs).flatMap Item.branches) := by
  cases bs with
  | nil => simp [branchAmong?] at hFound
  | cons c cs =>
      rw [branchAmong?] at hFound
      rw [innerOfBranches, List.flatMap_append,
        List.mem_cons, List.mem_append]
      split at hFound
      · next found hHead =>
          cases hFound
          rcases Branch.branch?_eq_some id c hHead with
            ⟨hId, hMem⟩
          rcases hMem with hMem | hMem
          · exact ⟨hId, Or.inl (Or.inl hMem)⟩
          · exact ⟨hId, Or.inr (Or.inl hMem)⟩
      · rcases branchAmong?_eq_some id cs hFound with
          ⟨hId, hMem⟩
        rcases hMem with hMem | hMem
        · exact ⟨hId, Or.inl (Or.inr hMem)⟩
        · exact ⟨hId, Or.inr (Or.inr hMem)⟩

/- The same for a content. -/
theorem branchIn?_eq_some
    (id : Nat)
    (items : List Item)
    {b : Branch}
    (hFound : branchIn? id items = some b) :
    b.id = id ∧ b ∈ branchesIn items := by
  cases items with
  | nil => simp [branchIn?] at hFound
  | cons i is =>
      rw [branchIn?] at hFound
      rw [branchesIn_cons, List.mem_append]
      split at hFound
      · next found hHead =>
          cases hFound
          rcases Item.branch?_eq_some id i hHead with
            ⟨hId, hMem⟩
          exact ⟨hId, Or.inl hMem⟩
      · rcases branchIn?_eq_some id is hFound with ⟨hId, hMem⟩
        exact ⟨hId, Or.inr hMem⟩

end

mutual

/- A search finds something under the number of a branch. -/
theorem Item.isSome_branch?
    (i : Item)
    {b : Branch}
    (hMem : b ∈ i.inner.flatMap Item.branches) :
    (i.branch? b.id).isSome = true := by
  cases i with
  | choices id depth line branches =>
      rw [Item.inner, List.flatMap_cons] at hMem
      rw [Item.branch?]
      exact isSome_branchAmong? branches
        (List.mem_append.mp hMem)
  | line id content =>
      simp [Item.inner, Item.branches] at hMem
  | gather id depth content =>
      simp [Item.inner, Item.branches] at hMem
  | assign id name value line =>
      simp [Item.inner, Item.branches] at hMem

/- The same for a branch. -/
theorem Branch.isSome_branch?
    (c : Branch)
    {b : Branch}
    (hMem :
      b = c ∨ b ∈ c.inner.flatMap Item.branches) :
    (c.branch? b.id).isSome = true := by
  rcases c with ⟨id, outputId, depth, choice, items⟩
  rw [Branch.branch?]
  split
  · rfl
  · next hId =>
      rcases hMem with rfl | hMem
      · exact absurd rfl hId
      · rw [Branch.inner, List.flatMap_cons] at hMem
        exact isSome_branchIn? items hMem

/- The same for branches. -/
theorem isSome_branchAmong?
    (bs : List Branch)
    {b : Branch}
    (hMem :
      b ∈ bs ∨
        b ∈ (innerOfBranches bs).flatMap Item.branches) :
    (branchAmong? b.id bs).isSome = true := by
  cases bs with
  | nil => simp [innerOfBranches] at hMem
  | cons c cs =>
      rw [innerOfBranches, List.flatMap_append,
        List.mem_cons, List.mem_append] at hMem
      rw [branchAmong?]
      split
      · rfl
      · next hNone =>
          have hNotHead :
              ¬ (b = c ∨
                b ∈ c.inner.flatMap Item.branches) := by
            intro hHead
            have hSome := Branch.isSome_branch? c hHead
            rw [hNone] at hSome
            cases hSome
          rw [not_or] at hNotHead
          apply isSome_branchAmong? cs
          rcases hMem with (hMem | hMem) | (hMem | hMem)
          · exact absurd hMem hNotHead.1
          · exact Or.inl hMem
          · exact absurd hMem hNotHead.2
          · exact Or.inr hMem

/- The same for a content. -/
theorem isSome_branchIn?
    (items : List Item)
    {b : Branch}
    (hMem : b ∈ branchesIn items) :
    (branchIn? b.id items).isSome = true := by
  cases items with
  | nil => simp at hMem
  | cons i is =>
      rw [branchesIn_cons, List.mem_append] at hMem
      rw [branchIn?]
      split
      · rfl
      · next hNone =>
          rcases hMem with hMem | hMem
          · have hSome := Item.isSome_branch? i hMem
            rw [hNone] at hSome
            cases hSome
          · exact isSome_branchIn? is hMem

end

/- Where no number stands twice, the branch itself is found. -/
theorem branchIn?_of_mem
    {items : List Item}
    (hNodup : (itemIds items).Nodup)
    {b : Branch}
    (hMem : b ∈ branchesIn items) :
    branchIn? b.id items = some b := by
  rcases
      Option.isSome_iff_exists.mp
        (isSome_branchIn? items hMem) with
    ⟨c, hFound⟩
  rcases branchIn?_eq_some b.id items hFound with ⟨hId, hMem'⟩
  rw [hFound, eq_of_branchId_eq hNodup hMem' hMem hId]

end BranchingStory

------------------------------------------------------------
-- Finding Blocks
------------------------------------------------------------

namespace BranchingStory

namespace Outline

variable {o : Outline}

/- No number of a content stands twice if none does at all. -/
theorem nodup_body
    (hNodup : o.ids.Nodup)
    {body : Body}
    (hBody : body ∈ o.bodies) :
    body.ids.Nodup := by
  rw [ids_eq, List.nodup_flatMap] at hNodup
  exact hNodup.1 body hBody

/- Two contents with a number in common are the same. -/
theorem body_eq_of_mem_ids
    (hNodup : o.ids.Nodup)
    {body body' : Body}
    (hBody : body ∈ o.bodies)
    (hBody' : body' ∈ o.bodies)
    {n : Nat}
    (hMem : n ∈ body.ids)
    (hMem' : n ∈ body'.ids) :
    body = body' := by
  rw [ids_eq, List.nodup_flatMap] at hNodup
  by_contra hNe
  have : Std.Symm (Function.onFun List.Disjoint Body.ids) :=
    ⟨fun _ _ hDisjoint _ hMem hMem' =>
      hDisjoint hMem' hMem⟩
  exact hNodup.2.forall hBody hBody' hNe hMem hMem'

/- The content of a stitch is one of the contents. -/
theorem body_mem_bodies
    {a : Address}
    {stitch : Stitch}
    (hStitch : o.stitch? a = some stitch) :
    stitch.body ∈ o.bodies := by
  rw [stitch?] at hStitch
  rcases Option.bind_eq_some_iff.mp hStitch with
    ⟨k, hKnot, hStitch⟩
  apply List.mem_append_left
  apply List.mem_map_of_mem
  exact List.mem_flatMap.mpr
    ⟨k, Table.mem_values_of_lookup hKnot,
      Table.mem_values_of_lookup hStitch⟩

/- The block under the number of a content is that content. -/
theorem block?_body
    (hNodup : o.ids.Nodup)
    {body : Body}
    (hBody : body ∈ o.bodies) :
    o.block? body.id = some body.items := by
  have hFind :
      (o.bodies.find? fun b => b.id = body.id) =
        some body := by
    cases hFound :
        o.bodies.find? fun b => b.id = body.id with
    | none =>
        have hNone := List.find?_eq_none.mp hFound body hBody
        simp at hNone
    | some body' =>
        have hId : body'.id = body.id := by
          simpa using List.find?_some hFound
        have hEq :=
          body_eq_of_mem_ids hNodup
            (List.mem_of_find?_eq_some hFound) hBody
            (n := body.id) (by simp [hId]) (by simp)
        rw [hEq]
  rw [block?, hFind]

/- The branch under the number of a branch is that branch. -/
theorem branch?_of_mem
    (hNodup : o.ids.Nodup)
    {b : Branch}
    (hBranch : b ∈ o.branches) :
    o.branch? b.id = some b := by
  rw [branches, List.mem_flatMap] at hBranch
  rcases hBranch with ⟨body, hBody, hMem⟩
  have hFound : branchIn? b.id body.items = some b := by
    have hIds := nodup_body hNodup hBody
    rw [Body.ids_eq, List.nodup_cons] at hIds
    exact branchIn?_of_mem hIds.2 hMem
  rw [branch?]
  cases hSome :
      o.bodies.findSome? fun b' => branchIn? b.id b'.items with
  | none =>
      rw [List.findSome?_eq_none_iff] at hSome
      rw [hSome body hBody] at hFound
      cases hFound
  | some c =>
      rcases List.exists_of_findSome?_eq_some hSome with
        ⟨body', hBody', hFound'⟩
      rcases branchIn?_eq_some b.id body'.items hFound' with
        ⟨hId, hMem'⟩
      have hEq : body' = body := by
        apply body_eq_of_mem_ids hNodup hBody' hBody
          (n := b.id)
        · rw [Body.ids_eq, ← hId]
          exact List.mem_cons_of_mem _ (id_mem_itemIds hMem')
        · rw [Body.ids_eq]
          exact List.mem_cons_of_mem _ (id_mem_itemIds hMem)
      rw [hEq, hFound] at hFound'
      exact hFound'.symm

/- The block under the number of a branch is its body. -/
theorem block?_branch
    (hNodup : o.ids.Nodup)
    {b : Branch}
    (hBranch : b ∈ o.branches) :
    o.block? b.id = some b.body := by
  have hFind :
      (o.bodies.find? fun body => body.id = b.id) = none := by
    rw [List.find?_eq_none]
    intro body' hBody' hId
    have hId' : body'.id = b.id := by simpa using hId
    rw [branches, List.mem_flatMap] at hBranch
    rcases hBranch with ⟨body, hBody, hMem⟩
    have hEq : body' = body :=
      body_eq_of_mem_ids hNodup hBody' hBody
        (n := b.id) (by simp [hId'])
        (by
          rw [Body.ids_eq]
          exact List.mem_cons_of_mem _ (id_mem_itemIds hMem))
    have hIds := nodup_body hNodup hBody
    rw [Body.ids_eq, List.nodup_cons] at hIds
    apply hIds.1
    rw [← hEq, hId', hEq]
    exact id_mem_itemIds hMem
  rw [block?, hFind]
  simp only [branch?_of_mem hNodup hBranch,
    Option.map_some]

/- A branch that is found is a branch of the outline. -/
theorem mem_branches_of_branch?
    {id : Nat}
    {b : Branch}
    (hFound : o.branch? id = some b) :
    b.id = id ∧ b ∈ o.branches := by
  rw [branch?] at hFound
  rcases List.exists_of_findSome?_eq_some hFound with
    ⟨body, hBody, hFound'⟩
  rcases branchIn?_eq_some id body.items hFound' with
    ⟨hId, hMem⟩
  exact ⟨hId, List.mem_flatMap.mpr ⟨body, hBody, hMem⟩⟩

/- The number of a branch is one of those of the outline. -/
theorem branchId_mem_ids
    {b : Branch}
    (hBranch : b ∈ o.branches) :
    b.id ∈ o.ids := by
  rw [branches, List.mem_flatMap] at hBranch
  rcases hBranch with ⟨body, hBody, hMem⟩
  rw [ids_eq, List.mem_flatMap]
  refine ⟨body, hBody, ?_⟩
  rw [Body.ids_eq]
  exact List.mem_cons_of_mem _ (id_mem_itemIds hMem)

/- The number of a content is one of those of the outline. -/
theorem bodyId_mem_ids
    {body : Body}
    (hBody : body ∈ o.bodies) :
    body.id ∈ o.ids := by
  rw [ids_eq, List.mem_flatMap]
  exact ⟨body, hBody, by simp⟩

end Outline

end BranchingStory

------------------------------------------------------------
-- Places
------------------------------------------------------------

namespace BranchingStory

/- A knot begins with one of its stitches. -/
theorem Knot.mem_keys_of_defaultStitch?
    {k : Knot}
    {name : String}
    (hBegins : k.defaultStitch? = some name) :
    name ∈ k.stitches.keys := by
  rw [defaultStitch?] at hBegins
  split at hBegins
  · next hRoot =>
      cases hBegins
      exact (Table.contains_eq_true _ _).mp hRoot
  · exact List.mem_of_head? hBegins

namespace Outline

/- The stitches of an outline stand under their addresses. -/
theorem hasAddress_iff
    (o : Outline)
    (a : Address) :
    o.hasAddress a = true ↔
      ∃ k, o.knots.lookup a.knot = some k ∧
        a.stitch ∈ k.stitches.keys := by
  rw [hasAddress, stitch?]
  cases hKnot : o.knots.lookup a.knot with
  | none => simp
  | some k =>
      simp only [Option.bind_eq_bind, Option.bind_some,
        Option.some.injEq, exists_eq_left']
      exact Table.contains_eq_true k.stitches a.stitch

/- Where a knot is known, its stitches have addresses. -/
theorem hasAddress_of_mem_keys
    {o : Outline}
    {k : Knot}
    {knot stitch : String}
    (hKnot : o.knots.lookup knot = some k)
    (hStitch : stitch ∈ k.stitches.keys) :
    o.hasAddress ⟨knot, stitch⟩ = true :=
  (o.hasAddress_iff ⟨knot, stitch⟩).mpr ⟨k, hKnot, hStitch⟩

variable {o o' : Outline}
variable {change : Knot → Knot}

/-
  Knots whose stitches keep their names have them under the
  same addresses.
-/
theorem hasAddress_congr
    (hKnots : ∀ name,
      o'.knots.lookup name = (o.knots.lookup name).map change)
    (hNames : ∀ k, (change k).stitches.keys = k.stitches.keys)
    (a : Address) :
    o'.hasAddress a = o.hasAddress a := by
  rw [Bool.eq_iff_iff, hasAddress_iff, hasAddress_iff, hKnots]
  simp [hNames]

/- Targets lead to the same places in them. -/
theorem findPlace?_congr
    (hKnots : ∀ name,
      o'.knots.lookup name = (o.knots.lookup name).map change)
    (hNames : ∀ k, (change k).stitches.keys = k.stitches.keys)
    (current target : String) :
    o'.findPlace? current target =
      o.findPlace? current target := by
  have hContains (k : Knot) (name : String) :
      (change k).stitches.contains name =
        k.stitches.contains name := by
    rw [Bool.eq_iff_iff, Table.contains_eq_true, hNames,
      Table.contains_eq_true]
  have hBegins (k : Knot) :
      (change k).defaultStitch? = k.defaultStitch? := by
    rw [Knot.defaultStitch?, hContains, hNames,
      Knot.defaultStitch?]
  simp only [findPlace?, hKnots, hasAddress_congr hKnots hNames]
  cases o.knots.lookup current with
  | none =>
      cases o.knots.lookup target with
      | none => rfl
      | some k => simp [hBegins]
  | some k =>
      cases o.knots.lookup target with
      | none => simp [hContains]
      | some k' => simp [hContains, hBegins]

end Outline

end BranchingStory
