import BranchingStory.Proofs.Spines

/-
  This file lists what the content of a stitch is made of, in
  the order of the script: lines, gathers and assignments, and
  at a set of choices each choice ahead of what follows it.
  The content that is being written is listed the same way,
  and closing sets of choices changes nothing in the list.

  Key definitions include:
    * `Entry`
    * `itemEntries`
    * `Spine.entries`

  Key theorems include:
    * `Spine.entries_closeTo`
    * `Spine.entries_finish`
    * `Spine.entries_openSet`
    * `Spine.entries_nextBranch`
-/

------------------------------------------------------------
-- Entries
------------------------------------------------------------

namespace BranchingStory

/-
  What one line of a script becomes: a line, a gather, an
  assignment or a choice.  The two lines of a choice belong to
  the choice.
-/
inductive Entry where
  | line (content : ContentLine)
  | gather (depth : Nat) (content : Option ContentLine)
  | assign (name : String) (value : Expr) (line : Nat)
  | choice (depth : Nat) (choice : Choice)

mutual

/- The entries of a part of the content. -/
def Item.entries : Item → List Entry
  | .line _ content => [.line content]
  | .gather _ depth content => [.gather depth content]
  | .assign _ name value line => [.assign name value line]
  | .choices _ _ _ branches => branchEntries branches

/- The entries of a branch, its choice first. -/
def Branch.entries : Branch → List Entry
  | .mk _ _ depth choice items =>
      .choice depth choice :: itemEntries items

/- The entries of branches, one branch after the other. -/
def branchEntries : List Branch → List Entry
  | [] => []
  | b :: bs => Branch.entries b ++ branchEntries bs

/- The entries of a list of content. -/
def itemEntries : List Item → List Entry
  | [] => []
  | i :: is => Item.entries i ++ itemEntries is

end

@[simp] theorem itemEntries_nil :
    itemEntries [] = [] := by
  simp [itemEntries]

@[simp] theorem itemEntries_append
    (is js : List Item) :
    itemEntries (is ++ js) =
      itemEntries is ++ itemEntries js := by
  induction is with
  | nil => simp
  | cons i is ih => simp [itemEntries, ih]

@[simp] theorem itemEntries_singleton
    (i : Item) :
    itemEntries [i] = i.entries := by
  simp [itemEntries]

@[simp] theorem branchEntries_nil :
    branchEntries [] = [] := by
  simp [branchEntries]

@[simp] theorem branchEntries_append
    (bs cs : List Branch) :
    branchEntries (bs ++ cs) =
      branchEntries bs ++ branchEntries cs := by
  induction bs with
  | nil => simp
  | cons b bs ih => simp [branchEntries, ih]

@[simp] theorem branchEntries_singleton
    (b : Branch) :
    branchEntries [b] = b.entries := by
  simp [branchEntries]

end BranchingStory

------------------------------------------------------------
-- Entries Of Spines
------------------------------------------------------------

namespace BranchingStory

/-
  The entries of an open set of choices, up to the choice of
  its last branch, and of what stands ahead of the set.
-/
def Rung.entries
    (depth : Nat)
    (r : Rung) : List Entry :=
  itemEntries r.before ++ branchEntries r.closed ++
    [.choice depth r.choice]

/- The entries of open sets, those of the outermost first. -/
def rungEntries : List Rung → List Entry
  | [] => []
  | r :: rs => rungEntries rs ++ r.entries (rs.length + 1)

namespace Spine

/- The entries of a content that is being written. -/
def entries
    (s : Spine) : List Entry :=
  rungEntries s.rungs ++ itemEntries s.items

@[simp] theorem entries_empty :
    empty.entries = [] := by
  simp [empty, entries, rungEntries]

@[simp] theorem entries_append
    (i : Item)
    (s : Spine) :
    (s.append i).entries = s.entries ++ i.entries := by
  simp [append, entries]

/- A closed set has the entries of the set and its branch. -/
theorem entries_close
    (r : Rung)
    (depth : Nat)
    (items : List Item) :
    itemEntries (r.close depth items) =
      r.entries depth ++ itemEntries items := by
  simp [Rung.close, Rung.branch, Rung.entries,
    Item.entries, Branch.entries]

/- Closing sets leaves all entries in their order. -/
theorem entries_closeRungs
    (depth : Nat)
    (rs : List Rung)
    (items : List Item) :
    (closeRungs depth rs items).entries =
      (Spine.mk rs items).entries := by
  induction rs generalizing items with
  | nil => rw [closeRungs]
  | cons r rs ih =>
      rw [closeRungs]
      split
      · rfl
      · rw [ih]
        simp only [entries, rungEntries, entries_close,
          List.append_assoc]

@[simp] theorem entries_closeTo
    (depth : Nat)
    (s : Spine) :
    (s.closeTo depth).entries = s.entries :=
  entries_closeRungs depth s.rungs s.items

/- As many sets stay open as the depth allows. -/
theorem depth_closeTo
    (depth : Nat)
    (s : Spine) :
    (s.closeTo depth).depth = min depth s.depth :=
  length_closeRungs depth s.rungs s.items

/- A content that is finished has kept all its entries. -/
theorem entries_finish
    (s : Spine) :
    itemEntries s.finish = s.entries := by
  have hRungs : (s.closeTo 0).rungs = [] := by
    apply List.length_eq_zero_iff.mp
    have hDepth := depth_closeTo 0 s
    rw [Nat.zero_min] at hDepth
    exact hDepth
  have hClosed := entries_closeTo 0 s
  rw [entries, hRungs, rungEntries, List.nil_append] at hClosed
  exact hClosed

/- A set that is opened adds the choice of its branch. -/
theorem entries_openSet
    (setId line branchId outputId : Nat)
    (c : Choice)
    (s : Spine) :
    (s.openSet setId line branchId outputId c).entries =
      s.entries ++ [.choice (s.depth + 1) c] := by
  simp [openSet, entries, rungEntries, Rung.entries, depth]

/- A branch that is begun in an open set adds its choice. -/
theorem entries_nextBranch
    (branchId outputId : Nat)
    (c : Choice)
    {s : Spine}
    (hOpen : 0 < s.depth) :
    (s.nextBranch branchId outputId c).entries =
      s.entries ++ [.choice s.depth c] := by
  rcases s with ⟨rungs, items⟩
  cases rungs with
  | nil => cases hOpen
  | cons r rs =>
      simp [nextBranch, entries, rungEntries, Rung.entries,
        Rung.branch, Branch.entries, depth]

end Spine

end BranchingStory
