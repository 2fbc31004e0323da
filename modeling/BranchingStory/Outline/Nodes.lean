import BranchingStory.Outline.Basic

/-
  This file lists the numbered parts of an outline one by one.
  Each is shown on its own, with the numbers of its parts.

  Key definitions include:
    * `Node`
    * `itemNodes`
    * `Body.nodes`
    * `Outline.nodes`
-/

------------------------------------------------------------
-- Nodes
------------------------------------------------------------

namespace BranchingStory

/- A numbered part that names its own parts by number. -/
inductive Node where
  | container (ids : List Nat)
  | branch (depth : Nat) (ids : List Nat) (choice : Choice)
  | choices (depth line : Nat) (ids : List Nat)
  | line (content : ContentLine)
  | gather (depth : Nat) (content : Option ContentLine)
  | assign (name : String) (value : Expr) (line : Nat)

/- A part of the content on its own. -/
def Item.node : Item → Node
  | .line _ content => .line content
  | .gather _ depth content => .gather depth content
  | .assign _ name value l => .assign name value l
  | .choices _ depth l branches =>
      .choices depth l (branches.map Branch.id)

/- A branch on its own. -/
def Branch.node
    (b : Branch) : Node :=
  .branch b.depth (b.body.map Item.id) b.choice

end BranchingStory

------------------------------------------------------------
-- Listing Nodes
------------------------------------------------------------

namespace BranchingStory

mutual

/- The numbered nodes of a part of the content. -/
def Item.nodes : Item → List (Nat × Node)
  | .line id content => [(id, .line content)]
  | .gather id depth content =>
      [(id, .gather depth content)]
  | .assign id name value l =>
      [(id, .assign name value l)]
  | .choices id depth l branches =>
      (id, .choices depth l (branches.map Branch.id)) ::
        branchNodes branches

/- The numbered nodes of a branch. -/
def Branch.nodes : Branch → List (Nat × Node)
  | .mk id outputId depth choice items =>
      (outputId, .line choice.output) ::
        (id, Branch.node (.mk id outputId depth choice items))
        :: itemNodes items

/- The numbered nodes of branches. -/
def branchNodes : List Branch → List (Nat × Node)
  | [] => []
  | b :: bs => Branch.nodes b ++ branchNodes bs

/- The numbered nodes of a list of content. -/
def itemNodes : List Item → List (Nat × Node)
  | [] => []
  | i :: is => Item.nodes i ++ itemNodes is

end

/- The numbered nodes of a content, its own first. -/
def Body.nodes
    (b : Body) : List (Nat × Node) :=
  (b.id, .container (b.items.map Item.id)) ::
    itemNodes b.items

/- All nodes of an outline with their numbers. -/
def Outline.numberedNodes
    (o : Outline) : List (Nat × Node) :=
  o.bodies.flatMap Body.nodes

/- All nodes of an outline in the order of their numbers. -/
def Outline.nodes
    (o : Outline) : List Node :=
  (o.numberedNodes.mergeSort fun m n => m.1 ≤ n.1).map
    Prod.snd

end BranchingStory
