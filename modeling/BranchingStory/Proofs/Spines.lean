import BranchingStory.Outline.Builder
import BranchingStory.Proofs.Leaves

/-
  This file follows the leaves of the content that is being
  written: closing sets of choices only moves them, and every
  other step adds its own.

  Key definitions include:
    * `Rung.leaves`
    * `Spine.leaves`
    * `branchOwnLeaves`
    * `Spine.Grows`

  Key theorems include:
    * `Spine.leaves_closeTo`
    * `Spine.leaves_finish`
    * `Spine.leaves_openSet`
    * `Spine.leaves_nextBranch`
    * `Spine.Grows.leaves`
-/

------------------------------------------------------------
-- Leaves Of Spines
------------------------------------------------------------

namespace BranchingStory

open scoped List

/- The leaves of a branch apart from its content. -/
def branchOwnLeaves
    (branchId outputId : Nat)
    (c : Choice) : List (Nat × Leaf) :=
  [(outputId, .line c.output), (branchId, .choice c)]

/- The leaves around the last branch of an open set. -/
def Rung.leaves
    (r : Rung) : List (Nat × Leaf) :=
  itemLeaves r.before ++
    ((r.id, .block) :: branchLeaves r.closed) ++
      branchOwnLeaves r.branchId r.outputId r.choice

namespace Spine

/- The leaves of a content that is being written. -/
def leaves
    (s : Spine) : List (Nat × Leaf) :=
  s.rungs.flatMap Rung.leaves ++ itemLeaves s.items

@[simp] theorem leaves_empty :
    empty.leaves = [] := by
  simp [empty, leaves]

@[simp] theorem leaves_append
    (i : Item)
    (s : Spine) :
    (s.append i).leaves = s.leaves ++ i.leaves := by
  simp [append, leaves]

/- A closed set has the leaves of the set and its branch. -/
theorem leaves_close
    (r : Rung)
    (depth : Nat)
    (items : List Item) :
    itemLeaves (r.close depth items) =
      r.leaves ++ itemLeaves items := by
  simp [Rung.close, Rung.branch, Rung.leaves,
    branchOwnLeaves]

/- Closing sets moves the leaves of inner ones outward. -/
theorem leaves_closeRungs
    (depth : Nat)
    (rs : List Rung)
    (items : List Item) :
    (closeRungs depth rs items).leaves ~
      (Spine.mk rs items).leaves := by
  induction rs generalizing items with
  | nil =>
      rw [closeRungs]
  | cons r rs ih =>
      rw [closeRungs]
      split
      · exact List.Perm.refl _
      · apply (ih _).trans
        simp only [leaves, leaves_close, List.flatMap_cons]
        rw [← List.append_assoc]
        exact List.Perm.append_right _ List.perm_append_comm

/- Closing the inner sets of a content keeps its leaves. -/
theorem leaves_closeTo
    (depth : Nat)
    (s : Spine) :
    (s.closeTo depth).leaves ~ s.leaves :=
  leaves_closeRungs depth s.rungs s.items

/- As many sets stay open as the depth says. -/
theorem length_closeRungs
    (depth : Nat)
    (rs : List Rung)
    (items : List Item) :
    (closeRungs depth rs items).rungs.length =
      min depth rs.length := by
  induction rs generalizing items with
  | nil => simp [closeRungs]
  | cons r rs ih =>
      rw [closeRungs]
      split
      · next hDeep =>
          simp only [List.length_cons]
          omega
      · next hDeep =>
          rw [ih]
          simp only [List.length_cons]
          omega

/- A content with every set closed keeps its leaves. -/
theorem leaves_finish
    (s : Spine) :
    itemLeaves s.finish ~ s.leaves := by
  have hRungs : (s.closeTo 0).rungs = [] := by
    apply List.length_eq_zero_iff.mp
    rw [closeTo, length_closeRungs]
    omega
  have hClosed := leaves_closeTo 0 s
  rw [leaves, hRungs] at hClosed
  exact hClosed

/- A set that is opened adds itself and its branch. -/
theorem leaves_openSet
    (setId line branchId outputId : Nat)
    (c : Choice)
    (s : Spine) :
    (s.openSet setId line branchId outputId c).leaves ~
      s.leaves ++
        ((setId, .block) ::
          branchOwnLeaves branchId outputId c) := by
  have hOpened :
      (s.openSet setId line branchId outputId c).leaves =
        (itemLeaves s.items ++
          ((setId, .block) ::
            branchOwnLeaves branchId outputId c)) ++
              s.rungs.flatMap Rung.leaves := by
    simp [openSet, leaves, Rung.leaves]
  rw [hOpened, leaves,
    List.append_assoc (s.rungs.flatMap Rung.leaves)]
  exact List.perm_append_comm

/- A branch that is begun in an open set adds itself. -/
theorem leaves_nextBranch
    (branchId outputId : Nat)
    (c : Choice)
    {s : Spine}
    (hOpen : s.rungs ≠ []) :
    (s.nextBranch branchId outputId c).leaves ~
      s.leaves ++ branchOwnLeaves branchId outputId c := by
  rcases s with ⟨rungs, items⟩
  cases rungs with
  | nil => exact absurd rfl hOpen
  | cons r rs =>
      have hNext :
          ((Spine.mk (r :: rs) items).nextBranch branchId
              outputId c).leaves =
            r.leaves ++
              ((itemLeaves items ++
                branchOwnLeaves branchId outputId c) ++
                  rs.flatMap Rung.leaves) := by
        simp [nextBranch, leaves, Rung.leaves, Rung.branch,
          branchOwnLeaves]
      have hBefore :
          (Spine.mk (r :: rs) items).leaves ++
              branchOwnLeaves branchId outputId c =
            r.leaves ++
              (rs.flatMap Rung.leaves ++
                (itemLeaves items ++
                  branchOwnLeaves branchId outputId c)) := by
        simp [leaves]
      rw [hNext, hBefore]
      exact List.Perm.append_left _ List.perm_append_comm

end Spine

end BranchingStory

------------------------------------------------------------
-- What Lines Add
------------------------------------------------------------

namespace BranchingStory

open scoped List

/- Whether a kind of line is written to a content. -/
def LineKind.isContent : LineKind → Bool
  | text => true
  | divert => true
  | assignment => true
  | choice _ _ => true
  | gather _ => true
  | _ => false

namespace Spine

/-
  What a line of a kind makes of a content, and the leaves that
  it adds, with the numbers from a given one on.  Nesting grows
  one level at a time, and an assignment that cannot be read
  adds nothing.
-/
inductive Grows
    (n : Nat)
    (s : Spine) :
    LineKind → Spine → List (Nat × Leaf) → Prop where
  | line {kind : LineKind} (hKind : kind = .text ∨ kind = .divert)
      (content : ContentLine) :
      Grows n s kind (s.append (.line n content))
        (Item.line n content).leaves
  | skip : Grows n s .assignment s []
  | assign (name : String) (value : Expr) (line : Nat) :
      Grows n s .assignment
        (s.append (.assign n name value line))
        (Item.assign n name value line).leaves
  | gather (depth : Nat) (content : Option ContentLine) :
      Grows n s (.gather depth)
        ((s.closeTo (min depth (s.depth + 1) - 1)).append
          (.gather n (min depth (s.depth + 1)) content))
        (Item.gather n (min depth (s.depth + 1))
          content).leaves
  | openSet {depth : Nat} (sticky : Bool) (line : Nat)
      (c : Choice) (hDeep : s.depth < depth) :
      Grows n s (.choice depth sticky)
        (s.openSet n line (n + 2) (n + 1) c)
        ((n, .block) :: branchOwnLeaves (n + 2) (n + 1) c)
  | nextBranch {depth : Nat} (sticky : Bool) (c : Choice)
      (hShallow : depth ≤ s.depth) :
      Grows n s (.choice depth sticky)
        ((s.closeTo depth).nextBranch (n + 1) n c)
        (branchOwnLeaves (n + 1) n c)

/- There is an open set of every depth up to the innermost. -/
theorem exists_rung
    {s : Spine}
    {depth : Nat}
    (hDepth : 0 < depth)
    (hShallow : depth ≤ s.depth) :
    ∃ r rs, (s.closeTo depth).rungs = r :: rs ∧
      rs.length + 1 = depth := by
  have hLength := length_closeRungs depth s.rungs s.items
  rw [Spine.depth] at hShallow
  rw [Nat.min_eq_left hShallow] at hLength
  rw [closeTo]
  cases hRungs : (closeRungs depth s.rungs s.items).rungs with
  | nil =>
      rw [hRungs, List.length_nil] at hLength
      omega
  | cons r rs =>
      rw [hRungs, List.length_cons] at hLength
      exact ⟨r, rs, rfl, hLength⟩

namespace Grows

variable {n : Nat}
variable {s s' : Spine}
variable {kind : LineKind}
variable {ns : List (Nat × Leaf)}

/- A line adds three leaves at the most. -/
theorem length_le
    (hGrows : s.Grows n kind s' ns) :
    ns.length ≤ 3 := by
  cases hGrows <;> simp [branchOwnLeaves]

/- A line adds leaves with the next numbers. -/
theorem leaves
    (hGrows : s.Grows n kind s' ns)
    (hDepth :
      ∀ depth sticky, kind = .choice depth sticky → 0 < depth) :
    s'.leaves ~ s.leaves ++ ns ∧
      ns.map Prod.fst ~ List.range' n ns.length := by
  cases hGrows with
  | line hKind content =>
      exact ⟨List.Perm.of_eq (leaves_append _ s), by simp⟩
  | skip => simp
  | assign name value line =>
      exact ⟨List.Perm.of_eq (leaves_append _ s), by simp⟩
  | gather depth content =>
      constructor
      · rw [leaves_append]
        exact List.Perm.append_right _ (leaves_closeTo _ _)
      · simp
  | openSet sticky line c hDeep =>
      refine ⟨leaves_openSet _ _ _ _ _ _, ?_⟩
      simp [branchOwnLeaves, List.range'_succ]
  | @nextBranch depth sticky c hShallow =>
      constructor
      · rcases exists_rung (hDepth depth sticky rfl) hShallow
          with ⟨r, rs, hRungs, _⟩
        have hOpen : (s.closeTo depth).rungs ≠ [] := by
          rw [hRungs]
          exact List.cons_ne_nil r rs
        exact (leaves_nextBranch _ _ _ hOpen).trans
          (List.Perm.append_right _ (leaves_closeTo _ _))
      · simp [branchOwnLeaves, List.range'_succ]

end Grows

end Spine

end BranchingStory
