import BranchingStory.Proofs.Comments
import BranchingStory.Proofs.LongNumbers
import BranchingStory.Proofs.Paths

/-
  This file shows when the reading of a whole script gives up.
  Its logical lines are parts of it, and neither to split it
  nor to check its outline ever gives up, so that the one
  reason is a line with more digits than a number may have.

  Key theorems include:
    * `classifyFrom_givesUp`
    * `Outline.check_givesUp`
    * `readOutline_givesUp`
-/

------------------------------------------------------------
-- Scripts
------------------------------------------------------------

namespace BranchingStory

open Reading
open scoped List

/- To split a script into logical lines never gives up. -/
theorem classifyFrom_givesUp
    (line : Nat)
    (texts : List (List Char)) :
    (classifyFrom line texts).GivesUpIf False := by
  have hChoice (line : Nat) (cs : List Char) :
      (some <$> classifyChoice line cs).GivesUpIf False := by
    rw [← bind_pure_comp]
    refine GivesUpIf.bind ?_ fun l => GivesUpIf.pure _
    unfold classifyChoice
    exact GivesUpIf.guarded (GivesUpIf.pure _)
  have hLine (line : Nat) (cs : List Char) :
      (classifyLine line cs).GivesUpIf False := by
    unfold classifyLine
    split
    · unfold classifyKnot
      dsimp only
      split
      · exact GivesUpIf.report_pure _ _ _
      · split
        · exact GivesUpIf.pure _
        · exact GivesUpIf.report_pure _ _ _
    · unfold classifyStitch
      dsimp only
      split
      · exact GivesUpIf.pure _
      · exact GivesUpIf.report_pure _ _ _
    · exact hChoice line _
    · exact hChoice line _
    · exact GivesUpIf.pure _
    · exact GivesUpIf.pure _
    · exact GivesUpIf.report_pure _ _ _
    · exact GivesUpIf.pure _
    · exact GivesUpIf.pure _
    · unfold classifyWords
      dsimp only
      split
      · exact GivesUpIf.pure _
      · split
        · exact GivesUpIf.pure _
        · split
          · exact GivesUpIf.report_pure _ _ _
          · exact GivesUpIf.pure _
  induction texts generalizing line with
  | nil => exact GivesUpIf.pure _
  | cons cs texts ih =>
      rw [classifyFrom]
      refine GivesUpIf.bind ?_ fun l? =>
        GivesUpIf.bind (ih _) fun ls => GivesUpIf.pure _
      refine GivesUpIf.bind ?_ fun content => ?_
      · intro d n hRun
        rw [run_dropComment] at hRun
        cases hRun
      · split
        · exact GivesUpIf.pure _
        · exact hLine line _

end BranchingStory

------------------------------------------------------------
-- Checks Never Give Up
------------------------------------------------------------

namespace BranchingStory

open Reading

variable {P : Prop}
variable (o : Outline)
variable (knot : String)

/- Steps for each item of a list. -/
theorem Reading.GivesUpIf.forM
    {α : Type}
    {f : α → Reading Unit}
    (hEach : ∀ a, (f a).GivesUpIf P)
    (xs : List α) :
    (xs.forM f).GivesUpIf P := by
  induction xs with
  | nil => exact GivesUpIf.pure ()
  | cons x xs ih => exact GivesUpIf.bind (hEach x) fun _ => ih

/- The kind of an expression is looked for without fail. -/
theorem Expr.checkKind_givesUp
    (line : Nat)
    (e : Expr) :
    (e.checkKind o knot line).GivesUpIf P := by
  induction e with
  | literal v => exact GivesUpIf.pure _
  | name s l meaning =>
      rw [checkKind]
      unfold checkName
      split
      · exact GivesUpIf.pure _
      · split
        · exact GivesUpIf.pure _
        · exact GivesUpIf.report_pure _ _ _
  | target s l place =>
      rw [checkKind]
      split
      · exact GivesUpIf.pure _
      · exact GivesUpIf.report_pure _ _ _
  | unary op e ih =>
      rw [checkKind]
      refine GivesUpIf.bind ih fun k => ?_
      split
      · exact GivesUpIf.pure _
      · split
        · exact GivesUpIf.pure _
        · exact GivesUpIf.report_pure _ _ _
      · split
        · exact GivesUpIf.pure _
        · exact GivesUpIf.report_pure _ _ _
  | binary op e f ihLeft ihRight =>
      rw [checkKind]
      refine GivesUpIf.bind ihLeft fun l => ?_
      refine GivesUpIf.bind ihRight fun r => ?_
      split
      · split
        · exact GivesUpIf.pure _
        · exact GivesUpIf.report_pure _ _ _
      · exact GivesUpIf.pure _

/- So is a condition checked. -/
theorem Expr.checkCondition_givesUp
    (line : Nat)
    (e : Expr) :
    (e.checkCondition o knot line).GivesUpIf P := by
  unfold checkCondition
  refine GivesUpIf.bind (e.checkKind_givesUp o knot line)
    fun k => ?_
  split
  · exact GivesUpIf.pure _
  · split
    · exact GivesUpIf.pure _
    · exact GivesUpIf.report _ _

/- So is a line. -/
theorem ContentLine.check_givesUp
    (l : ContentLine) :
    (l.check o knot).GivesUpIf P := by
  refine GivesUpIf.forM (fun f => ?_) _
  cases f with
  | text s => exact GivesUpIf.pure _
  | insertion e =>
      exact GivesUpIf.bind (e.checkKind_givesUp o knot _)
        fun _ => GivesUpIf.pure _
  | conditional c t f =>
      exact c.checkCondition_givesUp o knot _
  | alternative m items n => exact GivesUpIf.pure _
  | divert d =>
      rw [Fragment.check]
      split
      · exact GivesUpIf.pure _
      · exact GivesUpIf.report _ _

/- So is a part of the content without its branches. -/
theorem Item.check_givesUp
    (i : Item) :
    (i.check o knot).GivesUpIf P := by
  cases i with
  | line id content => exact content.check_givesUp o knot
  | gather id depth content =>
      cases content with
      | none => exact GivesUpIf.pure _
      | some content => exact content.check_givesUp o knot
  | assign id name value line =>
      rw [Item.check]
      unfold checkAssignment
      split
      · exact GivesUpIf.report _ _
      · refine GivesUpIf.guarded ?_
        refine GivesUpIf.bind
          (value.checkKind_givesUp o knot line) fun k => ?_
        split
        · exact GivesUpIf.pure _
        · split
          · exact GivesUpIf.pure _
          · exact GivesUpIf.report _ _
  | choices id depth line branches =>
      refine GivesUpIf.bind ?_ fun _ =>
        GivesUpIf.bind (GivesUpIf.forM (fun c => ?_) _)
          fun _ => GivesUpIf.forM (fun c => ?_) _
      · unfold checkFallbackCount
        split
        · exact GivesUpIf.report _ _
        · exact GivesUpIf.pure _
      · unfold checkFallback
        split
        · exact GivesUpIf.pure _
        · exact GivesUpIf.report _ _
      · exact GivesUpIf.bind
          (GivesUpIf.forM
            (Expr.checkCondition_givesUp o knot _) _)
          fun _ => c.display.check_givesUp o knot

mutual

/- So are the branches of a part. -/
theorem Item.checkBranches_givesUp
    (i : Item) :
    (i.checkBranches o knot).GivesUpIf P := by
  cases i with
  | choices id depth line branches =>
      rw [Item.checkBranches]
      exact checkBranchList_givesUp branches
  | line id content =>
      rw [Item.checkBranches]
      · exact GivesUpIf.pure _
      · simp
  | gather id depth content =>
      rw [Item.checkBranches]
      · exact GivesUpIf.pure _
      · simp
  | assign id name value line =>
      rw [Item.checkBranches]
      · exact GivesUpIf.pure _
      · simp

/- So is a branch. -/
theorem Branch.check_givesUp
    (b : Branch) :
    (b.check o knot).GivesUpIf P := by
  rcases b with ⟨id, outputId, depth, choice, items⟩
  rw [Branch.check]
  exact GivesUpIf.bind (choice.output.check_givesUp o knot)
    fun _ => GivesUpIf.bind
      (GivesUpIf.forM (Item.check_givesUp o knot) _)
      fun _ => checkInnerBranches_givesUp items

/- So are branches in a row. -/
theorem checkBranchList_givesUp
    (bs : List Branch) :
    (checkBranchList o knot bs).GivesUpIf P := by
  cases bs with
  | nil =>
      rw [checkBranchList]
      exact GivesUpIf.pure _
  | cons b bs =>
      rw [checkBranchList]
      exact GivesUpIf.bind (checkBranchList_givesUp bs)
        fun _ => Branch.check_givesUp b

/- So are the branches in a content. -/
theorem checkInnerBranches_givesUp
    (items : List Item) :
    (checkInnerBranches o knot items).GivesUpIf P := by
  cases items with
  | nil =>
      rw [checkInnerBranches]
      exact GivesUpIf.pure _
  | cons i is =>
      rw [checkInnerBranches]
      exact GivesUpIf.bind (checkInnerBranches_givesUp is)
        fun _ => Item.checkBranches_givesUp i

end

/- So is a whole outline. -/
theorem Outline.check_givesUp :
    o.check.GivesUpIf P := by
  refine GivesUpIf.bind
    (GivesUpIf.forM (fun d => ?_) _) fun _ =>
      GivesUpIf.forM (fun k => ?_) _
  · unfold Declaration.check
    refine GivesUpIf.guarded ?_
    split
    · split
      · exact GivesUpIf.pure _
      · exact GivesUpIf.report _ _
    · exact GivesUpIf.pure _
  · exact GivesUpIf.forM
      (fun s => GivesUpIf.bind
        (GivesUpIf.forM (Item.check_givesUp o k.name) _)
        fun _ => checkInnerBranches_givesUp o k.name _) _

/- Only a number that is too long ends the reading of a script. -/
theorem readOutline_givesUp
    (source : String) :
    (readOutline source).GivesUpIf
      (HasLongNumber source.toList) := by
  refine GivesUpIf.bind_ensures
    ((classifyFrom_givesUp 1 _).mono False.elim)
    (classifyScript_reads source) fun ls hAll => ?_
  refine GivesUpIf.bind
    ((buildOutline_givesUp ls).mono ?_) fun o? => ?_
  · rintro ⟨l, hMem, hLong⟩
    exact hLong.mono (hAll.1 l hMem).part
  · split
    · exact GivesUpIf.pure _
    · exact GivesUpIf.bind (Outline.check_givesUp _)
        fun _ => GivesUpIf.pure _

end BranchingStory
