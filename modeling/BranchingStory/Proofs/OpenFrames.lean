import BranchingStory.Proofs.Arenas

/-
  This file follows the content that is being written from line
  to line: what each kind of line makes of the spine, that the
  blocks of the spine stay in shape, and what becomes of the
  stack of open blocks when it is kept as a list of frames that
  are pushed and popped.

  Key definitions include:
    * `IsOpenEnded`
    * `Spine.Fits`
    * `OpenFrame`
    * `popTo`
    * `Spine.framesOver`
    * `framesWithin`

  Key theorems include:
    * `TreeFits.concat`
    * `Spine.Fits.finish`
    * `Spine.Grows.fits`
    * `Spine.Grows.frames`
-/

------------------------------------------------------------
-- Blocks That Grow
------------------------------------------------------------

namespace BranchingStory

/- Whether a content does not end with a set of choices. -/
def IsOpenEnded
    (items : List Item) : Prop :=
  ∀ i, items.getLast? = some i → i.isChoices = false

theorem IsOpenEnded.nil :
    IsOpenEnded [] := by
  intro i hLast
  cases hLast

/- What is put at the end of a content decides. -/
theorem IsOpenEnded.concat
    {i : Item}
    (hPart : i.isChoices = false)
    (items : List Item) :
    IsOpenEnded (items ++ [i]) := by
  intro j hLast
  rw [List.getLast?_concat] at hLast
  cases hLast
  exact hPart

theorem branchesIn_append
    (is js : List Item) :
    branchesIn (is ++ js) =
      branchesIn is ++ branchesIn js := by
  induction is with
  | nil => simp
  | cons i is ih => simp [ih]

/- The branches of a set are its own and those within them. -/
theorem mem_branchesIn_set
    {id depth line : Nat}
    {bs : List Branch}
    {b : Branch}
    (hMem :
      b ∈ branchesIn [.choices id depth line bs]) :
    b ∈ bs ∨ ∃ c ∈ bs, b ∈ branchesIn c.items := by
  rw [branchesIn_cons, branchesIn_nil, List.append_nil,
    Item.inner, List.flatMap_cons, innerOfBranches_eq,
    List.flatMap_assoc] at hMem
  rcases List.mem_append.mp hMem with hMem | hMem
  · exact Or.inl hMem
  · rcases List.mem_flatMap.mp hMem with ⟨c, hBranch, hMem⟩
    refine Or.inr ⟨c, hBranch, ?_⟩
    rcases c with ⟨id, outputId, depth, choice, items⟩
    rw [Branch.inner, List.flatMap_cons] at hMem
    exact hMem

namespace TreeFits

variable {depth : Nat}
variable {items : List Item}

theorem nil
    (depth : Nat) :
    TreeFits depth [] where
  own := {
    sets := by
      intro id d line bs hMem
      cases hMem
    ends := by
      intro before i after hSplit
      cases before <;> cases hSplit }
  inner := by simp

/- A part alone is in shape if it is no set of choices. -/
theorem single
    {i : Item}
    (hPart : i.isChoices = false) :
    TreeFits depth [i] where
  own := {
    sets := by
      intro id d line bs hMem
      rw [List.mem_singleton] at hMem
      rw [← hMem] at hPart
      cases hPart
    ends := by
      intro before j after hSplit hSet
      rcases List.singleton_eq_append_iff.mp hSplit with
        ⟨rfl, hTail⟩ | ⟨rfl, hTail⟩
      · cases hTail
        exact Or.inl rfl
      · cases hTail }
  inner := by
    cases i with
    | choices id d line bs => cases hPart
    | line id content =>
        simp [Item.inner, Item.branches]
    | gather id d content =>
        simp [Item.inner, Item.branches]
    | assign id name value line =>
        simp [Item.inner, Item.branches]

/- So is a set alone whose branches are in shape. -/
theorem set
    {bs : List Branch}
    (hSome : bs ≠ [])
    (hBranches :
      ∀ b ∈ bs, b.depth = depth + 1 ∧
        TreeFits (depth + 1) b.items)
    (id line : Nat) :
    TreeFits depth [.choices id (depth + 1) line bs] where
  own := {
    sets := by
      intro id' d line' bs' hMem
      rw [List.mem_singleton] at hMem
      cases hMem
      exact ⟨rfl, hSome, fun b hMem => (hBranches b hMem).1⟩
    ends := by
      intro before j after hSplit hSet
      rcases List.singleton_eq_append_iff.mp hSplit with
        ⟨rfl, hTail⟩ | ⟨rfl, hTail⟩
      · cases hTail
        exact Or.inl rfl
      · cases hTail }
  inner := by
    intro b hMem
    rcases mem_branchesIn_set hMem with
      hOwn | ⟨c, hBranch, hInner⟩
    · rcases hBranches b hOwn with ⟨hDepth, hFits⟩
      rw [hDepth]
      exact hFits.own
    · exact (hBranches c hBranch).2.inner b hInner

/-
  A part may be put at the end of a block unless a set stands
  there; a gather may even then.
-/
theorem concat
    {i : Item}
    (hFits : TreeFits depth items)
    (hPart : TreeFits depth [i])
    (hEnd :
      IsOpenEnded items ∨
        ∃ id d content, i = .gather id d content) :
    TreeFits depth (items ++ [i]) where
  own := {
    sets := by
      intro id d line bs hMem
      rcases List.mem_append.mp hMem with hMem | hMem
      · exact hFits.own.sets id d line bs hMem
      · exact hPart.own.sets id d line bs hMem
    ends := by
      intro before j after hSplit hSet
      rcases List.eq_nil_or_concat after with
        rfl | ⟨after, k, rfl⟩
      · exact Or.inl rfl
      · right
        rw [List.concat_eq_append, ← List.cons_append,
          ← List.append_assoc] at hSplit
        rcases List.append_inj' hSplit rfl with
          ⟨hItems, hLast⟩
        cases hLast
        rcases hFits.own.ends before j after hItems hSet with
          rfl | ⟨id, d, content, rest, rfl⟩
        · rcases hEnd with hOpen | ⟨id, d, content, rfl⟩
          · have hClosed := hOpen j (by
              rw [hItems, List.getLast?_concat])
            rw [hSet] at hClosed
            cases hClosed
          · exact ⟨id, d, content, [], rfl⟩
        · exact ⟨id, d, content, rest ++ [i], by
            rw [List.concat_eq_append, List.cons_append]⟩ }
  inner := by
    intro b hMem
    rw [branchesIn_append] at hMem
    rcases List.mem_append.mp hMem with hMem | hMem
    · exact hFits.inner b hMem
    · exact hPart.inner b hMem

end TreeFits

end BranchingStory

------------------------------------------------------------
-- Spines In Shape
------------------------------------------------------------

namespace BranchingStory

/-
  Whether the blocks around the innermost one are in shape, and
  a set may be put at the end of each.
-/
def RungsFit : List Rung → Prop
  | [] => True
  | r :: rs =>
      TreeFits rs.length r.before ∧ IsOpenEnded r.before ∧
        (∀ b ∈ r.closed, b.depth = rs.length + 1 ∧
          TreeFits (rs.length + 1) b.items) ∧
        RungsFit rs

namespace Rung

/- A set that is closed keeps the block around it in shape. -/
theorem close_fits
    {r : Rung}
    {rs : List Rung}
    {items : List Item}
    (hRungs : RungsFit (r :: rs))
    (hItems : TreeFits (rs.length + 1) items) :
    TreeFits rs.length (r.close (rs.length + 1) items) := by
  rcases hRungs with ⟨hBefore, hOpen, hClosed, _⟩
  refine hBefore.concat (TreeFits.set (by simp) ?_ _ _)
    (Or.inl hOpen)
  intro b hMem
  rcases List.mem_append.mp hMem with hMem | hMem
  · exact hClosed b hMem
  · rw [List.mem_singleton] at hMem
    rw [hMem]
    exact ⟨rfl, hItems⟩

end Rung

namespace Spine

/-
  Whether all blocks of a content that is being written are in
  shape, and any part may be put at its end.
-/
structure Fits
    (s : Spine) : Prop where
  rungs : RungsFit s.rungs
  items : TreeFits s.depth s.items
  isOpen : IsOpenEnded s.items

/- Nothing written is in shape. -/
theorem fits_empty :
    empty.Fits :=
  ⟨trivial, TreeFits.nil 0, IsOpenEnded.nil⟩

/- Closing inner sets keeps the blocks in shape. -/
theorem closeRungs_fits
    {rs : List Rung}
    {items : List Item}
    (hRungs : RungsFit rs)
    (hItems : TreeFits rs.length items)
    (depth : Nat) :
    RungsFit (closeRungs depth rs items).rungs ∧
      TreeFits (closeRungs depth rs items).depth
        (closeRungs depth rs items).items := by
  induction rs generalizing items with
  | nil => exact ⟨hRungs, hItems⟩
  | cons r rs ih =>
      rw [closeRungs]
      split
      · exact ⟨hRungs, hItems⟩
      · exact ih hRungs.2.2.2 (Rung.close_fits hRungs hItems)

/- A content that is finished is in shape. -/
theorem Fits.finish
    {s : Spine}
    (hFits : s.Fits) :
    TreeFits 0 s.finish := by
  have hClosed := closeRungs_fits hFits.rungs hFits.items 0
  have hLength := length_closeRungs 0 s.rungs s.items
  rw [Nat.zero_min] at hLength
  have hItems := hClosed.2
  rw [depth, hLength] at hItems
  exact hItems

end Spine

end BranchingStory

------------------------------------------------------------
-- Lines That Keep The Shape
------------------------------------------------------------

namespace BranchingStory

/- A line keeps a content in shape. -/
theorem Spine.Grows.fits
    {n : Nat}
    {s s' : Spine}
    {kind : LineKind}
    {ns : List (Nat × Leaf)}
    (hGrows : s.Grows n kind s' ns)
    (hNested : kind.IsNested)
    (hFits : s.Fits) :
    s'.Fits := by
  have hClosed (depth : Nat) :=
    closeRungs_fits hFits.rungs hFits.items depth
  have hPut {i : Item} (hPart : i.isChoices = false) :
      (s.append i).Fits :=
    ⟨hFits.rungs,
      hFits.items.concat (TreeFits.single hPart)
        (Or.inl hFits.isOpen),
      IsOpenEnded.concat hPart _⟩
  cases hGrows with
  | line _ content => exact hPut rfl
  | skip => exact hFits
  | assign name value line => exact hPut rfl
  | gather depth content =>
      exact ⟨(hClosed _).1,
        (hClosed _).2.concat (TreeFits.single rfl)
          (Or.inr ⟨_, _, _, rfl⟩),
        IsOpenEnded.concat rfl _⟩
  | openSet sticky line c hDeep =>
      refine ⟨⟨hFits.items, hFits.isOpen, ?_, hFits.rungs⟩,
        TreeFits.nil _, IsOpenEnded.nil⟩
      intro b hMem
      cases hMem
  | @nextBranch depth sticky c hShallow =>
      rcases exists_rung hNested hShallow with
        ⟨r, rs, hRungs, _⟩
      rcases hClosed depth with ⟨hRungsFit, hItems⟩
      rw [closeTo] at hRungs ⊢
      rw [Spine.depth, hRungs] at hItems
      rw [hRungs] at hRungsFit
      rcases hRungsFit with ⟨hBefore, hOpen, hBranches, hRest⟩
      rw [Spine.nextBranch, hRungs]
      refine ⟨⟨hBefore, hOpen, ?_, hRest⟩, TreeFits.nil _,
        IsOpenEnded.nil⟩
      intro b hMem
      rcases List.mem_append.mp hMem with hMem | hMem
      · exact hBranches b hMem
      · rw [List.mem_singleton] at hMem
        rw [hMem]
        exact ⟨rfl, hItems⟩

end BranchingStory

------------------------------------------------------------
-- Open Frames
------------------------------------------------------------

namespace BranchingStory

/-
  A block that takes further content: how deep it is nested,
  its number, and the number of the set of choices that is open
  in it, if one is.
-/
structure OpenFrame where
  depth : Nat
  block : Nat
  openSet : Option Nat
deriving DecidableEq, Repr

/-
  Pop the innermost frames down to one above a depth.  There is
  no result if the last frame is popped.
-/
def popTo
    (depth : Nat) : List OpenFrame → Option (List OpenFrame)
  | [] => none
  | f :: fs =>
      if depth ≤ f.depth then popTo depth fs
      else some (f :: fs)

/-
  A choice of a depth: it goes into the open set of the frame
  that is left, or opens one, and its branch is pushed.
-/
def pushBranch
    (depth n : Nat)
    (fs : List OpenFrame) : Option (List OpenFrame) :=
  match popTo depth fs with
  | some (f :: fs) =>
      match f.openSet with
      | none =>
          some (⟨depth, n + 2, none⟩ ::
            { f with openSet := some n } :: fs)
      | some _ => some (⟨depth, n + 1, none⟩ :: f :: fs)
  | _ => none

/- A gather of a depth: it closes the set of the frame left. -/
def gatherFrames
    (depth : Nat)
    (fs : List OpenFrame) : Option (List OpenFrame) :=
  match popTo depth fs with
  | some (f :: fs) => some ({ f with openSet := none } :: fs)
  | _ => none

/- How deep a line is nested, one level more at the most. -/
def nestedDepth
    (depth : Nat) : List OpenFrame → Nat
  | [] => depth
  | f :: _ => min depth (f.depth + 1)

/-
  What a line makes of the open frames of a content, the
  innermost first, if its first part gets the given number.
-/
def framesWithin
    (kind : LineKind)
    (n : Nat)
    (fs : List OpenFrame) : Option (List OpenFrame) :=
  match kind with
  | .choice depth _ => pushBranch (nestedDepth depth fs) n fs
  | .gather depth => gatherFrames (nestedDepth depth fs) fs
  | _ => some fs

namespace Spine

/-
  The frames of open sets over a content, the innermost first.
  The innermost frame has the given open set, and every other
  one that of the rung above it.
-/
def framesOver
    (id : Nat) :
    List Rung → Option Nat → List OpenFrame
  | [], set => [⟨0, id, set⟩]
  | r :: rs, set =>
      ⟨rs.length + 1, r.branchId, set⟩ ::
        framesOver id rs (some r.id)

/- The innermost frame is as deep as there are open sets. -/
theorem framesOver_eq
    (id : Nat)
    (rs : List Rung) :
    ∃ block fs, ∀ set, framesOver id rs set =
      ⟨rs.length, block, set⟩ :: fs := by
  cases rs with
  | nil => exact ⟨id, [], fun _ => rfl⟩
  | cons r rs => exact ⟨r.branchId, _, fun _ => rfl⟩

/- The depths of the frames run down to zero. -/
theorem depths_framesOver
    (id : Nat)
    (rs : List Rung)
    (set : Option Nat) :
    (framesOver id rs set).map OpenFrame.depth =
      (List.range (rs.length + 1)).reverse := by
  induction rs generalizing set with
  | nil => rfl
  | cons r rs ih =>
      rw [framesOver, List.map_cons, ih, List.length_cons,
        List.range_succ (n := rs.length + 1),
        List.reverse_append]
      rfl

/- Popping frames closes the sets that are deep enough. -/
theorem popTo_framesOver
    {depth : Nat}
    (hDepth : 0 < depth)
    (id : Nat)
    (rs : List Rung)
    (items : List Item)
    (set : Option Nat) :
    ∃ set', popTo depth (framesOver id rs set) =
      some (framesOver id
        (closeRungs (depth - 1) rs items).rungs set') := by
  induction rs generalizing items set with
  | nil =>
      refine ⟨set, ?_⟩
      rw [framesOver, popTo, if_neg (by simp only; omega),
        closeRungs, framesOver]
  | cons r rs ih =>
      rw [framesOver, popTo, closeRungs]
      by_cases hDeep : depth ≤ rs.length + 1
      · rw [if_pos hDeep, if_neg (by omega)]
        exact ih _ _
      · rw [if_neg hDeep, if_pos (by omega)]
        exact ⟨set, rfl⟩

/- The set of the first frame that is left is the open one. -/
theorem popTo_openSet
    {id depth : Nat}
    (hDepth : 0 < depth)
    {rs : List Rung}
    (hShallow : depth ≤ rs.length)
    (items : List Item)
    (set : Option Nat)
    {r : Rung}
    {rs' : List Rung}
    (hRungs : (closeRungs depth rs items).rungs = r :: rs') :
    popTo depth (framesOver id rs set) =
      some (framesOver id rs' (some r.id)) := by
  induction rs generalizing items set with
  | nil =>
      rw [List.length_nil] at hShallow
      omega
  | cons q rs ih =>
      rw [List.length_cons] at hShallow
      rw [closeRungs] at hRungs
      rw [framesOver, popTo, if_pos hShallow]
      split at hRungs
      · next hLeft =>
          cases hRungs
          rcases framesOver_eq id rs' with
            ⟨block, fs, hFrames⟩
          rw [hFrames, popTo, if_neg (by simp only; omega)]
      · next hLeft => exact ih (by omega) _ _ hRungs

/-
  What a line makes of a content is what it makes of its open
  frames.  The last frame is never popped.
-/
theorem Grows.frames
    {n : Nat}
    {s s' : Spine}
    {kind : LineKind}
    {ns : List (Nat × Leaf)}
    (hGrows : s.Grows n kind s' ns)
    (hNested : kind.IsNested)
    (id : Nat) :
    framesWithin kind n (framesOver id s.rungs none) =
      some (framesOver id s'.rungs none) := by
  rcases framesOver_eq id s.rungs with
    ⟨block, fs, hFrames⟩
  have hClamp (depth : Nat) :
      nestedDepth depth (framesOver id s.rungs none) =
        min depth (s.depth + 1) := by
    rw [hFrames, nestedDepth, Spine.depth]
  cases hGrows with
  | line hKind content => rcases hKind with rfl | rfl <;> rfl
  | skip => rfl
  | assign name value line => rfl
  | gather depth content =>
      rw [framesWithin, hClamp, gatherFrames]
      have hPositive : 0 < min depth (s.depth + 1) := by
        change 0 < depth at hNested
        omega
      rcases popTo_framesOver hPositive id s.rungs s.items
          none with
        ⟨set, hPop⟩
      rcases framesOver_eq id
          (closeRungs (min depth (s.depth + 1) - 1) s.rungs
            s.items).rungs with
        ⟨block', fs', hLeft⟩
      rw [hPop, hLeft]
      change some (OpenFrame.mk _ block' none :: fs') = _
      rw [← hLeft none]
      rfl
  | @openSet depth sticky line c hDeep =>
      rw [framesWithin, hClamp, pushBranch, hFrames]
      have hSame : min depth (s.depth + 1) = s.depth + 1 := by
        omega
      rw [hSame, popTo, if_neg (by
        simp only [Spine.depth]
        omega)]
      change some (_ :: OpenFrame.mk _ block (some n) :: fs) = _
      rw [← hFrames]
      rfl
  | @nextBranch depth sticky c hShallow =>
      rcases exists_rung hNested hShallow with
        ⟨r, rs, hRungs, hLength⟩
      rw [framesWithin, hClamp, pushBranch]
      have hSame : min depth (s.depth + 1) = depth := by
        omega
      rw [hSame, popTo_openSet hNested hShallow s.items none
        hRungs]
      rcases framesOver_eq id rs with
        ⟨block', fs', hLeft⟩
      rw [hLeft]
      change some (OpenFrame.mk _ _ none ::
        OpenFrame.mk _ block' (some r.id) :: fs') = _
      rw [← hLeft, Spine.nextBranch, hRungs, framesOver,
        hLength]

end Spine

end BranchingStory
