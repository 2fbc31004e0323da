import BranchingStory.Proofs.Assembly

/-
  This file compares walks along lists of pending work with the
  walks of the check.  The fragments of a line and the nodes of
  a stitch are both visited by taking the last entry of a list
  and putting what it holds at the end.  Nothing is left out on
  the way and nothing is visited twice.

  Key definitions include:
    * `WorksOff`
    * `Fragment.turn?`
    * `Stitch.trail`
    * `checkTurn?`
    * `checkAt`

  Key theorems include:
    * `WorksOff.unique`
    * `worksOff_fragments_iff`
    * `worksOff_stitch_iff`
    * `Stitch.trail_perm`
    * `Stitch.mem_trail_iff`
    * `Stitch.check_eq`
-/

------------------------------------------------------------
-- Pending Work
------------------------------------------------------------

namespace BranchingStory

/-
  What a list of pending work yields if its last entry is
  always done first.  A turn takes an entry away, yields
  something and may put further entries at the end.  Work that
  has no turn is stuck, and what never ends yields nothing.
-/
inductive WorksOff
    {α β : Type}
    (turn? : α → Option (List β × List α)) :
    List α → List β → Prop where
  | done : WorksOff turn? [] []
  | turn
      {pending more : List α} {a : α} {ys rest : List β}
      (hTurn : turn? a = some (ys, more))
      (hThen : WorksOff turn? (pending ++ more) rest) :
      WorksOff turn? (pending ++ [a]) (ys ++ rest)

variable {α β : Type}
variable {turn? : α → Option (List β × List α)}

/- A turn may yield a single thing. -/
theorem WorksOff.single
    {pending more : List α}
    {a : α}
    {y : β}
    {rest : List β}
    (hTurn : turn? a = some ([y], more))
    (hThen : WorksOff turn? (pending ++ more) rest) :
    WorksOff turn? (pending ++ [a]) (y :: rest) :=
  .turn hTurn hThen

/- The pending work alone decides what it yields. -/
theorem WorksOff.unique
    {pending : List α}
    {ys zs : List β}
    (hWorks : WorksOff turn? pending ys)
    (hWorks' : WorksOff turn? pending zs) :
    ys = zs := by
  induction hWorks generalizing zs with
  | done =>
      generalize hPending : ([] : List α) = p at hWorks'
      cases hWorks' with
      | done => rfl
      | turn hTurn hThen => simp at hPending
  | @turn pending more a ys rest hTurn hThen ih =>
      generalize hPending : pending ++ [a] = p at hWorks'
      cases hWorks' with
      | done => simp at hPending
      | @turn pending' more' a' ys' rest' hTurn' hThen' =>
          rcases List.append_inj' hPending rfl with
            ⟨rfl, hSame⟩
          cases hSame
          rw [hTurn] at hTurn'
          cases hTurn'
          rw [ih hThen']

end BranchingStory

------------------------------------------------------------
-- Pending Fragments
------------------------------------------------------------

namespace BranchingStory

namespace Fragment

/- What a fragment holds, in the order of the script. -/
def parts : Fragment → List Fragment
  | .conditional _ t f => t ++ f
  | .alternative _ items _ => items.flatten
  | _ => []

/-
  What a visit to a fragment puts at the end of the list of
  pending fragments.  What comes first in the script is put
  there last.
-/
def pushed : Fragment → List Fragment
  | .conditional _ t f => f.reverse ++ t.reverse
  | .alternative _ items _ => items.reverse.flatMap List.reverse
  | _ => []

/- A turn visits the fragment and puts its parts aside. -/
def turn?
    (f : Fragment) : Option (List Fragment × List Fragment) :=
  some ([f], f.pushed)

/- The items of an alternative are walked one by one. -/
theorem walkItems_eq_walkAll
    (items : List (List Fragment)) :
    walkItems items = walkAll items.flatten := by
  induction items with
  | nil => rfl
  | cons fs items ih =>
      rw [walkItems_cons, List.flatten_cons, walkAll_append, ih]

/- A list of fragments is walked one by one. -/
theorem walkAll_eq_flatMap
    (fs : List Fragment) :
    walkAll fs = fs.flatMap walk := by
  induction fs with
  | nil => rfl
  | cons f fs ih => rw [walkAll, List.flatMap_cons, ih]

/- A fragment is visited ahead of what it holds. -/
theorem walk_eq
    (f : Fragment) :
    f.walk = f :: f.parts.flatMap walk := by
  rw [← walkAll_eq_flatMap]
  cases f with
  | text s => rfl
  | insertion e => rfl
  | conditional c t f => rw [walk, parts, walkAll_append]
  | alternative m items n =>
      rw [walk, parts, walkItems_eq_walkAll]
  | divert d => rfl

mutual

/- A pending fragment yields itself and all that it holds. -/
theorem worksOff_walk
    {pending rest : List Fragment}
    (f : Fragment)
    (hRest : WorksOff turn? pending rest) :
    WorksOff turn? (pending ++ [f]) (f.walk ++ rest) := by
  have hAlone (hWalk : f.walk = [f]) (hPushed : f.pushed = []) :
      WorksOff turn? (pending ++ [f]) (f.walk ++ rest) := by
    rw [hWalk]
    refine .single rfl ?_
    rwa [hPushed, List.append_nil]
  cases f with
  | conditional c t f =>
      rw [walk, List.cons_append, List.append_assoc]
      refine .single rfl ?_
      rw [pushed, ← List.append_assoc]
      exact worksOff_walkAll t (worksOff_walkAll f hRest)
  | alternative m items n =>
      rw [walk, List.cons_append]
      refine .single rfl ?_
      exact worksOff_walkItems items hRest
  | text s => exact hAlone (by simp [walk]) rfl
  | insertion e => exact hAlone (by simp [walk]) rfl
  | divert d => exact hAlone (by simp [walk]) rfl

/- The same for fragments that are put aside in reverse. -/
theorem worksOff_walkAll
    {pending rest : List Fragment}
    (fs : List Fragment)
    (hRest : WorksOff turn? pending rest) :
    WorksOff turn? (pending ++ fs.reverse)
      (walkAll fs ++ rest) := by
  cases fs with
  | nil => simpa using hRest
  | cons f fs =>
      rw [walkAll, List.reverse_cons, List.append_assoc,
        ← List.append_assoc pending]
      exact worksOff_walk f (worksOff_walkAll fs hRest)

/- The same for the items of an alternative. -/
theorem worksOff_walkItems
    {pending rest : List Fragment}
    (items : List (List Fragment))
    (hRest : WorksOff turn? pending rest) :
    WorksOff turn?
      (pending ++ items.reverse.flatMap List.reverse)
      (walkItems items ++ rest) := by
  cases items with
  | nil => simpa using hRest
  | cons fs items =>
      rw [walkItems, List.reverse_cons, List.flatMap_append,
        List.append_assoc, ← List.append_assoc pending,
        List.flatMap_singleton]
      exact worksOff_walkAll fs
        (worksOff_walkItems items hRest)

end

end Fragment

/-
  The fragments of a line that are put aside in reverse yield
  all fragments in the order of the walk, and nothing else.
-/
theorem worksOff_fragments_iff
    (fs visited : List Fragment) :
    WorksOff Fragment.turn? fs.reverse visited ↔
      visited = Fragment.walkAll fs := by
  have hWorks :=
    Fragment.worksOff_walkAll fs
      (.done : WorksOff Fragment.turn? [] [])
  rw [List.nil_append, List.append_nil] at hWorks
  constructor
  · intro hVisited
    exact hVisited.unique hWorks
  · rintro rfl
    exact hWorks

end BranchingStory

------------------------------------------------------------
-- Trails Through Contents
------------------------------------------------------------

namespace BranchingStory

/-
  The numbers that are visited with a part of the content: its
  own, and those of the branches that it offers.
-/
def Item.visited
    (i : Item) : List Nat :=
  i.id :: i.branches.map Branch.id

mutual

/- The numbers that are visited later, within the branches. -/
def Item.trail : Item → List Nat
  | .choices _ _ _ branches => branchesTrail branches
  | _ => []

/- The numbers that are visited within a branch. -/
def Branch.trail : Branch → List Nat
  | .mk _ outputId _ _ items =>
      outputId :: items.flatMap Item.visited ++ itemsTrail items

/- Those within branches: the last branch comes first. -/
def branchesTrail : List Branch → List Nat
  | [] => []
  | b :: bs => branchesTrail bs ++ Branch.trail b

/- Those within the branches of a content, the last first. -/
def itemsTrail : List Item → List Nat
  | [] => []
  | i :: is => itemsTrail is ++ Item.trail i

end

/- The numbers that are visited within a stitch. -/
def Stitch.trail
    (s : Stitch) : List Nat :=
  s.body.items.flatMap Item.visited ++ itemsTrail s.body.items

open scoped List

mutual

/- Every number within a part of the content is visited once. -/
theorem Item.trail_perm
    (i : Item) :
    i.visited ++ i.trail ~ i.ids := by
  cases i with
  | choices id depth line branches =>
      rw [Item.visited, Item.trail, Item.ids_choices]
      exact (branchesTrail_perm branches).cons id
  | line id content =>
      simp [Item.visited, Item.trail, Item.id, Item.branches]
  | gather id depth content =>
      simp [Item.visited, Item.trail, Item.id, Item.branches]
  | assign id name value line =>
      simp [Item.visited, Item.trail, Item.id, Item.branches]

/- The same for a branch, whose own number comes before. -/
theorem Branch.trail_perm
    (b : Branch) :
    b.id :: b.trail ~ b.ids := by
  rcases b with ⟨id, outputId, depth, choice, items⟩
  rw [Branch.trail, Branch.ids_mk]
  have hItems := itemsTrail_perm items
  exact ((hItems.cons outputId).cons id).trans
    (List.Perm.swap outputId id _)

/- The same for branches. -/
theorem branchesTrail_perm
    (bs : List Branch) :
    bs.map Branch.id ++ branchesTrail bs ~ branchIds bs := by
  cases bs with
  | nil => simp [branchesTrail]
  | cons b bs =>
      have hHead := Branch.trail_perm b
      have hTail := branchesTrail_perm bs
      rw [branchesTrail, List.map_cons, branchIds_cons,
        ← List.singleton_append]
      refine (List.perm_append_comm.append_left _).trans ?_
      exact (perm_append_append_comm _ _ _ _).trans
        (hHead.append hTail)

/- The same for a content. -/
theorem itemsTrail_perm
    (items : List Item) :
    items.flatMap Item.visited ++ itemsTrail items ~
      itemIds items := by
  cases items with
  | nil => simp [itemsTrail]
  | cons i is =>
      have hHead := Item.trail_perm i
      have hTail := itemsTrail_perm is
      rw [itemsTrail, List.flatMap_cons, itemIds_cons]
      refine (List.perm_append_comm.append_left _).trans ?_
      exact (perm_append_append_comm _ _ _ _).trans
        (hHead.append hTail)

end

/- Every number within a stitch is visited once. -/
theorem Stitch.trail_perm
    (s : Stitch) :
    s.trail ~ itemIds s.body.items :=
  itemsTrail_perm s.body.items

end BranchingStory

------------------------------------------------------------
-- Pending Contents
------------------------------------------------------------

namespace BranchingStory

/- The branches that a node offers, if it is a set of choices. -/
def Node.offered : Node → List Nat
  | .choices _ _ ids => ids
  | _ => []

/-
  The numbers that are visited with the parts of a block, and
  the branches that are pending after it.
-/
def visitParts?
    (ns : List Node) :
    List Nat → Option (List Nat × List Nat)
  | [] => some ([], [])
  | i :: is => do
      let n ← ns[i]?
      let (visited, more) ← visitParts? ns is
      return (i :: n.offered ++ visited, n.offered ++ more)

/- A turn visits the parts of a stitch or a branch. -/
def checkTurn?
    (ns : List Node)
    (id : Nat) : Option (List Nat × List Nat) := do
  let n ← ns[id]?
  let (_, ids) ← n.block?
  visitParts? ns ids

/- Whether numbered nodes stand at their places in a list. -/
def StandIn
    (ns : List Node)
    (ps : List (Nat × Node)) : Prop :=
  ∀ p ∈ ps, ns[p.1]? = some p.2

variable {ns : List Node}

theorem StandIn.append
    {ps qs : List (Nat × Node)}
    (hStand : StandIn ns (ps ++ qs)) :
    StandIn ns ps ∧ StandIn ns qs :=
  List.forall_mem_append.mp hStand

/- A part of the content stands at its own place. -/
theorem Item.stands
    {i : Item}
    (hStand : StandIn ns i.nodes) :
    ns[i.id]? = some i.node := by
  apply hStand (i.id, i.node)
  cases i <;> simp [Item.nodes, Item.id, Item.node]

theorem Item.offered_node
    (i : Item) :
    i.node.offered = i.branches.map Branch.id := by
  cases i <;> rfl

/- The parts of a content are visited one by one. -/
theorem visitParts?_items
    {items : List Item}
    (hStand : StandIn ns (itemNodes items)) :
    visitParts? ns (items.map Item.id) =
      some (items.flatMap Item.visited,
        items.flatMap fun i => i.branches.map Branch.id) := by
  induction items with
  | nil => rfl
  | cons i is ih =>
      rw [itemNodes] at hStand
      rcases hStand.append with ⟨hHead, hTail⟩
      rw [List.map_cons, visitParts?, Item.stands hHead,
        ih hTail]
      simp [Item.visited, Item.offered_node]

/- A turn at a block visits its content. -/
theorem checkTurn?_of_block
    {id depth : Nat}
    {n : Node}
    {items : List Item}
    (hAt : ns[id]? = some n)
    (hBlock : n.block? = some (depth, items.map Item.id))
    (hStand : StandIn ns (itemNodes items)) :
    checkTurn? ns id =
      some (items.flatMap Item.visited,
        items.flatMap fun i => i.branches.map Branch.id) := by
  rw [checkTurn?, hAt, ← visitParts?_items hStand]
  simp only [Option.bind_eq_bind, Option.bind_some, hBlock]

mutual

/- What is pending with the branches of a part yields its trail. -/
theorem worksOff_item
    {pending rest : List Nat}
    (i : Item)
    (hStand : StandIn ns i.nodes)
    (hRest : WorksOff (checkTurn? ns) pending rest) :
    WorksOff (checkTurn? ns)
      (pending ++ i.branches.map Branch.id)
      (i.trail ++ rest) := by
  cases i with
  | choices id depth line branches =>
      rw [Item.nodes] at hStand
      rw [Item.trail]
      exact worksOff_branches branches
        (List.forall_mem_cons.mp hStand).2 hRest
  | line id content => simpa [Item.branches, Item.trail]
  | gather id depth content =>
      simpa [Item.branches, Item.trail]
  | assign id name value line =>
      simpa [Item.branches, Item.trail]

/- The same for a branch. -/
theorem worksOff_branch
    {pending rest : List Nat}
    (b : Branch)
    (hStand : StandIn ns b.nodes)
    (hRest : WorksOff (checkTurn? ns) pending rest) :
    WorksOff (checkTurn? ns) (pending ++ [b.id])
      (b.trail ++ rest) := by
  rcases b with ⟨id, outputId, depth, choice, items⟩
  rw [Branch.nodes] at hStand
  rcases List.forall_mem_cons.mp hStand with ⟨hOutput, hStand⟩
  rcases List.forall_mem_cons.mp hStand with ⟨hOwn, hInner⟩
  have hBody :
      StandIn ns (itemNodes
        (Branch.mk id outputId depth choice items).body) :=
    List.forall_mem_cons.mpr ⟨hOutput, hInner⟩
  have hTurn := checkTurn?_of_block hOwn rfl hBody
  rw [Branch.trail, List.append_assoc]
  exact .turn hTurn (worksOff_items items hInner hRest)

/- The same for branches, of which the last comes first. -/
theorem worksOff_branches
    {pending rest : List Nat}
    (bs : List Branch)
    (hStand : StandIn ns (branchNodes bs))
    (hRest : WorksOff (checkTurn? ns) pending rest) :
    WorksOff (checkTurn? ns) (pending ++ bs.map Branch.id)
      (branchesTrail bs ++ rest) := by
  cases bs with
  | nil => simpa [branchesTrail]
  | cons b bs =>
      rw [branchNodes] at hStand
      rcases hStand.append with ⟨hHead, hTail⟩
      have hFirst := worksOff_branch b hHead hRest
      have hThen := worksOff_branches bs hTail hFirst
      rwa [List.append_assoc, ← List.append_assoc
        (branchesTrail bs)] at hThen

/- The same for a content. -/
theorem worksOff_items
    {pending rest : List Nat}
    (items : List Item)
    (hStand : StandIn ns (itemNodes items))
    (hRest : WorksOff (checkTurn? ns) pending rest) :
    WorksOff (checkTurn? ns)
      (pending ++
        items.flatMap fun i => i.branches.map Branch.id)
      (itemsTrail items ++ rest) := by
  cases items with
  | nil => simpa [itemsTrail]
  | cons i is =>
      rw [itemNodes] at hStand
      rcases hStand.append with ⟨hHead, hTail⟩
      have hFirst := worksOff_item i hHead hRest
      have hThen := worksOff_items is hTail hFirst
      rwa [List.append_assoc, ← List.append_assoc
        (itemsTrail is)] at hThen

end

/-
  Where the nodes of a stitch stand in their places, the check
  of the stitch ends, and visits its trail.
-/
theorem worksOff_stitch_iff
    {s : Stitch}
    (hStand : StandIn ns s.body.nodes)
    (visited : List Nat) :
    WorksOff (checkTurn? ns) [s.body.id] visited ↔
      visited = s.trail := by
  rcases List.forall_mem_cons.mp hStand with ⟨hOwn, hItems⟩
  have hWorks :
      WorksOff (checkTurn? ns) ([] ++ [s.body.id])
        (s.body.items.flatMap Item.visited ++
          (itemsTrail s.body.items ++ [])) :=
    .turn (checkTurn?_of_block hOwn rfl hItems)
      (worksOff_items s.body.items hItems .done)
  rw [List.append_nil, List.nil_append] at hWorks
  constructor
  · intro hVisited
    exact hVisited.unique hWorks
  · rintro rfl
    exact hWorks

end BranchingStory

------------------------------------------------------------
-- Reach
------------------------------------------------------------

namespace BranchingStory

open Relation

variable {ns : List Node}

mutual

/- All within a part is reached from the part. -/
theorem Item.reaches
    {j : Nat}
    (i : Item)
    (hStand : StandIn ns i.nodes)
    (hMem : j ∈ i.ids) :
    ReflTransGen (IsPartOf ns) j i.id := by
  cases i with
  | choices id depth line branches =>
      rw [Item.ids_choices] at hMem
      rw [Item.nodes] at hStand
      rcases List.forall_mem_cons.mp hStand with ⟨hOwn, hInner⟩
      rcases List.mem_cons.mp hMem with rfl | hMem
      · exact .refl
      · rcases branches_reach branches hInner hMem with
          ⟨b, hBranch, hReach⟩
        exact hReach.tail
          ⟨_, hOwn, List.mem_map_of_mem hBranch⟩
  | line id content =>
      rw [Item.ids_line, List.mem_singleton] at hMem
      exact hMem ▸ .refl
  | gather id depth content =>
      rw [Item.ids_gather, List.mem_singleton] at hMem
      exact hMem ▸ .refl
  | assign id name value line =>
      rw [Item.ids_assign, List.mem_singleton] at hMem
      exact hMem ▸ .refl

/- The same for a branch. -/
theorem Branch.reaches
    {j : Nat}
    (b : Branch)
    (hStand : StandIn ns b.nodes)
    (hMem : j ∈ b.ids) :
    ReflTransGen (IsPartOf ns) j b.id := by
  rcases b with ⟨id, outputId, depth, choice, items⟩
  rw [Branch.ids_mk] at hMem
  rw [Branch.nodes] at hStand
  rcases List.forall_mem_cons.mp hStand with ⟨_, hStand⟩
  rcases List.forall_mem_cons.mp hStand with ⟨hOwn, hInner⟩
  rcases List.mem_cons.mp hMem with rfl | hMem
  · exact .single ⟨_, hOwn, List.mem_cons_self⟩
  · rcases List.mem_cons.mp hMem with rfl | hMem
    · exact .refl
    · rcases items_reach items hInner hMem with
        ⟨i, hItem, hReach⟩
      exact hReach.tail ⟨_, hOwn,
        List.mem_cons_of_mem _ (List.mem_map_of_mem hItem)⟩

/- All within branches is reached from one of them. -/
theorem branches_reach
    {j : Nat}
    (bs : List Branch)
    (hStand : StandIn ns (branchNodes bs))
    (hMem : j ∈ branchIds bs) :
    ∃ b ∈ bs, ReflTransGen (IsPartOf ns) j b.id := by
  cases bs with
  | nil => simp at hMem
  | cons b bs =>
      rw [branchNodes] at hStand
      rcases hStand.append with ⟨hHead, hTail⟩
      rw [branchIds_cons, List.mem_append] at hMem
      rcases hMem with hMem | hMem
      · exact ⟨b, List.mem_cons_self,
          Branch.reaches b hHead hMem⟩
      · rcases branches_reach bs hTail hMem with
          ⟨b', hBranch, hReach⟩
        exact ⟨b', List.mem_cons_of_mem b hBranch, hReach⟩

/- The same for a content. -/
theorem items_reach
    {j : Nat}
    (items : List Item)
    (hStand : StandIn ns (itemNodes items))
    (hMem : j ∈ itemIds items) :
    ∃ i ∈ items, ReflTransGen (IsPartOf ns) j i.id := by
  cases items with
  | nil => simp at hMem
  | cons i is =>
      rw [itemNodes] at hStand
      rcases hStand.append with ⟨hHead, hTail⟩
      rw [itemIds_cons, List.mem_append] at hMem
      rcases hMem with hMem | hMem
      · exact ⟨i, List.mem_cons_self,
          Item.reaches i hHead hMem⟩
      · rcases items_reach is hTail hMem with
          ⟨i', hItem, hReach⟩
        exact ⟨i', List.mem_cons_of_mem i hItem, hReach⟩

end

/- No part of what is within a content is outside of it. -/
theorem mem_itemIds_of_isPartOf
    {items : List Item}
    (hStand : StandIn ns (itemNodes items))
    {j k : Nat}
    (hPart : IsPartOf ns j k)
    (hMem : k ∈ itemIds items) :
    j ∈ itemIds items := by
  rcases hPart with ⟨n, hAt, hPart⟩
  rcases List.mem_map.mp hMem with ⟨p, hNode, rfl⟩
  have hSame := Option.some.inj (hAt.symm.trans (hStand p hNode))
  rw [hSame] at hPart
  apply (partsOf_itemNodes items).mem_iff.mp
  exact List.mem_append_left _
    (List.mem_flatMap.mpr ⟨p, hNode, hPart⟩)

/- The trail of a stitch is what is reached from it. -/
theorem Stitch.mem_trail_iff
    {s : Stitch}
    (hStand : StandIn ns s.body.nodes)
    (j : Nat) :
    j ∈ s.trail ↔ TransGen (IsPartOf ns) j s.body.id := by
  rcases List.forall_mem_cons.mp hStand with ⟨hOwn, hItems⟩
  rw [s.trail_perm.mem_iff]
  constructor
  · intro hMem
    rcases items_reach _ hItems hMem with ⟨i, hItem, hReach⟩
    exact .tail' hReach ⟨_, hOwn, List.mem_map_of_mem hItem⟩
  · intro hReach
    induction hReach using TransGen.head_induction_on with
    | single hPart =>
        rcases hPart with ⟨n, hAt, hPart⟩
        have hSame := Option.some.inj (hAt.symm.trans hOwn)
        rw [hSame] at hPart
        apply (partsOf_itemNodes s.body.items).mem_iff.mp
        exact List.mem_append_right _ hPart
    | head hPart _ ih =>
        exact mem_itemIds_of_isPartOf hItems hPart ih

end BranchingStory

------------------------------------------------------------
-- Checks At Nodes
------------------------------------------------------------

namespace BranchingStory

/- The choice that leads into a node, if it is a branch. -/
def Node.choice? : Node → Option Choice
  | branch _ _ c => some c
  | _ => none

/- The choices of the branches at the given numbers. -/
def choicesAt
    (ns : List Node)
    (ids : List Nat) : List Choice :=
  ids.filterMap fun id => ns[id]?.bind Node.choice?

/-
  What the check does at a node.  At a set of choices it looks
  for fallbacks; the choices themselves come with the branches.
-/
def Node.check
    (o : Outline)
    (knot : String)
    (ns : List Node) : Node → Reading Unit
  | .line content => content.check o knot
  | .gather _ (some content) => content.check o knot
  | .assign name value l => checkAssignment o knot name value l
  | .choices _ _ ids => do
      let fallbacks := (choicesAt ns ids).filter Choice.fallback
      checkFallbackCount fallbacks
      fallbacks.forM checkFallback
  | .branch _ _ c => c.check o knot
  | _ => return ()

/- What the check does when it visits a number. -/
def checkAt
    (o : Outline)
    (knot : String)
    (ns : List Node)
    (id : Nat) : Reading Unit :=
  match ns[id]? with
  | some n => n.check o knot ns
  | none => return ()

variable {ns : List Node}
variable (o : Outline)
variable (knot : String)

/- A list is checked like its two parts. -/
theorem forM_checkAt_append
    (is js : List Nat) :
    (is ++ js).forM (checkAt o knot ns) =
      is.forM (checkAt o knot ns) >>= fun _ =>
        js.forM (checkAt o knot ns) := by
  simp only [List.forM_eq_forM, List.forM_append]

theorem checkAt_of_node
    {id : Nat}
    {n : Node}
    (hAt : ns[id]? = some n) :
    checkAt o knot ns id = n.check o knot ns := by
  rw [checkAt, hAt]

/- Branches stand at their own places. -/
theorem branches_stand
    {bs : List Branch}
    (hStand : StandIn ns (branchNodes bs)) :
    ∀ b ∈ bs, ns[b.id]? = some b.node := by
  induction bs with
  | nil => simp
  | cons b bs ih =>
      rw [branchNodes] at hStand
      rcases hStand.append with ⟨hHead, hTail⟩
      rw [List.forall_mem_cons]
      refine ⟨hHead (b.id, b.node) ?_, ih hTail⟩
      rcases b with ⟨id, outputId, depth, choice, items⟩
      rw [Branch.nodes]
      exact List.mem_cons_of_mem _ List.mem_cons_self

/- The choices of branches are found at their numbers. -/
theorem choicesAt_branches
    {bs : List Branch}
    (hAt : ∀ b ∈ bs, ns[b.id]? = some b.node) :
    choicesAt ns (bs.map Branch.id) = bs.map Branch.choice := by
  rw [choicesAt, List.filterMap_map, ← List.filterMap_eq_map]
  apply List.filterMap_congr
  intro b hMem
  simp only [Function.comp, hAt b hMem]
  rfl

/- Branches are checked one by one. -/
theorem forM_branches
    {bs : List Branch}
    (hAt : ∀ b ∈ bs, ns[b.id]? = some b.node) :
    (bs.map Branch.id).forM (checkAt o knot ns) =
      (bs.map Branch.choice).forM (Choice.check o knot) := by
  induction bs with
  | nil => rfl
  | cons b bs ih =>
      rw [List.forall_mem_cons] at hAt
      change (do
        checkAt o knot ns b.id
        (bs.map Branch.id).forM (checkAt o knot ns)) = _
      rw [checkAt_of_node o knot hAt.1, ih hAt.2]
      rfl

/- A part is checked with what is visited along with it. -/
theorem Item.forM_visited
    {i : Item}
    (hStand : StandIn ns i.nodes) :
    i.visited.forM (checkAt o knot ns) = i.check o knot := by
  have hOwn := checkAt_of_node o knot (Item.stands hStand)
  have hFirst :
      i.visited.forM (checkAt o knot ns) =
        i.node.check o knot ns >>= fun _ =>
          (i.branches.map Branch.id).forM
            (checkAt o knot ns) := by
    rw [← hOwn]
    rfl
  rw [hFirst]
  cases i with
  | choices id depth line branches =>
      rw [Item.nodes] at hStand
      have hAt :=
        branches_stand (List.forall_mem_cons.mp hStand).2
      rw [Item.branches, forM_branches o knot hAt, Item.node,
        Node.check, choicesAt_branches hAt, Item.check,
        checkChoices]
      simp only [bind_assoc]
  | line id content => exact bind_pure_unit
  | gather id depth content =>
      cases content <;> exact bind_pure_unit
  | assign id name value line => exact bind_pure_unit

/- A content is checked with what is visited in it. -/
theorem forM_visited
    {items : List Item}
    (hStand : StandIn ns (itemNodes items)) :
    (items.flatMap Item.visited).forM (checkAt o knot ns) =
      items.forM (Item.check o knot) := by
  induction items with
  | nil => rfl
  | cons i is ih =>
      rw [itemNodes] at hStand
      rcases hStand.append with ⟨hHead, hTail⟩
      rw [List.flatMap_cons, forM_checkAt_append,
        Item.forM_visited o knot hHead, ih hTail]
      rfl

mutual

/- What is within a part is checked along its trail. -/
theorem Item.forM_trail
    (i : Item)
    (hStand : StandIn ns i.nodes) :
    i.trail.forM (checkAt o knot ns) =
      i.checkBranches o knot := by
  cases i with
  | choices id depth line branches =>
      rw [Item.nodes] at hStand
      rw [Item.trail, Item.checkBranches]
      exact forM_branchesTrail branches
        (List.forall_mem_cons.mp hStand).2
  | line id content => simp [Item.trail, Item.checkBranches]
  | gather id depth content =>
      simp [Item.trail, Item.checkBranches]
  | assign id name value line =>
      simp [Item.trail, Item.checkBranches]

/- The same for a branch. -/
theorem Branch.forM_trail
    (b : Branch)
    (hStand : StandIn ns b.nodes) :
    b.trail.forM (checkAt o knot ns) = b.check o knot := by
  rcases b with ⟨id, outputId, depth, choice, items⟩
  rw [Branch.nodes] at hStand
  rcases List.forall_mem_cons.mp hStand with ⟨hOutput, hStand⟩
  rcases List.forall_mem_cons.mp hStand with ⟨_, hInner⟩
  have hFirst :
      checkAt o knot ns outputId = choice.output.check o knot :=
    checkAt_of_node o knot hOutput
  rw [Branch.trail, forM_checkAt_append, Branch.check,
    forM_itemsTrail items hInner, ← forM_visited o knot hInner,
    ← hFirst]
  exact bind_assoc _ _ _

/- The same for branches. -/
theorem forM_branchesTrail
    (bs : List Branch)
    (hStand : StandIn ns (branchNodes bs)) :
    (branchesTrail bs).forM (checkAt o knot ns) =
      checkBranchList o knot bs := by
  cases bs with
  | nil => simp [branchesTrail, checkBranchList]
  | cons b bs =>
      rw [branchNodes] at hStand
      rcases hStand.append with ⟨hHead, hTail⟩
      rw [branchesTrail, forM_checkAt_append, checkBranchList,
        forM_branchesTrail bs hTail, Branch.forM_trail b hHead]

/- The same for a content. -/
theorem forM_itemsTrail
    (items : List Item)
    (hStand : StandIn ns (itemNodes items)) :
    (itemsTrail items).forM (checkAt o knot ns) =
      checkInnerBranches o knot items := by
  cases items with
  | nil => simp [itemsTrail, checkInnerBranches]
  | cons i is =>
      rw [itemNodes] at hStand
      rcases hStand.append with ⟨hHead, hTail⟩
      rw [itemsTrail, forM_checkAt_append, checkInnerBranches,
        forM_itemsTrail is hTail, Item.forM_trail i hHead]

end

/- A stitch is checked along its trail. -/
theorem Stitch.check_eq
    {s : Stitch}
    (hStand : StandIn ns s.body.nodes) :
    s.check o knot = s.trail.forM (checkAt o knot ns) := by
  have hItems := (List.forall_mem_cons.mp hStand).2
  rw [Stitch.check, Stitch.trail, forM_checkAt_append,
    forM_visited o knot hItems, forM_itemsTrail o knot _ hItems]

end BranchingStory
