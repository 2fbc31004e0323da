import BranchingStory.Proofs.Accepted
import BranchingStory.Proofs.Runs

/-
  This file shows that the check of a story comes to each part
  of its content, at any depth, and therefore that every set of
  choices in a story that can be read has one fallback at most.

  Key definitions include:
    * `Item.fallbacks`
    * `Outline.parts`

  Key theorems include:
    * `Outline.checks_everywhere`
    * `innerItems_resolve`
    * `Story.length_fallbacks_le_one`
-/

------------------------------------------------------------
-- Parts And Fallbacks
------------------------------------------------------------

namespace BranchingStory

/- The fallbacks that a part of the content offers itself. -/
def Item.fallbacks
    (i : Item) : List Branch :=
  i.branches.filter fun b => b.choice.fallback

namespace Outline

/- All parts of the content of an outline, at any depth. -/
def parts
    (o : Outline) : List Item :=
  o.bodies.flatMap fun b => innerItems b.items

variable {o : Outline}

/- What stands in a block is one of the parts. -/
theorem block_subset_parts
    {id : Nat}
    {items : List Item}
    (hBlock : o.block? id = some items) :
    items ⊆ o.parts := by
  rcases block?_eq_some hBlock with ⟨body, hBody, hItems⟩
  intro i hItem
  refine List.mem_flatMap.mpr ⟨body, hBody, ?_⟩
  have hInner := subset_innerItems items hItem
  rcases hItems with rfl | ⟨b, hBranch, rfl⟩
  · exact hInner
  · exact innerItems_body_subset hBranch hInner

end Outline

/- Every part that a story stands at is one of its parts. -/
theorem Position.IsCoherent.mem_parts
    {o : Outline}
    {p : Position}
    {f : Frame}
    {fs : List Frame}
    {i : Item}
    (hCoherent : p.IsCoherent o)
    (hAt : p.IsAt o f fs i) :
    i ∈ o.parts := by
  rcases hCoherent.item_mem hAt with ⟨items, hBlock, hItem⟩
  exact Outline.block_subset_parts hBlock hItem

end BranchingStory

------------------------------------------------------------
-- Checks Of Every Stitch
------------------------------------------------------------

namespace BranchingStory

open Reading

variable {P : Item → Prop}

/-
  What a check without errors says of each part, it says of all
  parts of a knot.
-/
theorem Knot.checks_everywhere
    (o : Outline)
    (k : Knot)
    (hCheck :
      ∀ i : Item, (i.check o k.name).Checks fun _ => P i) :
    (k.check o).Checks fun _ =>
      ∀ s ∈ k.stitches.values,
        ∀ j ∈ innerItems s.body.items, P j :=
  Checks.forM (Stitch.checks_everywhere hCheck) _

/- The same for all knots of an outline. -/
theorem Outline.checks_everywhere
    (o : Outline)
    (hCheck : ∀ knot (i : Item),
      (i.check o knot).Checks fun _ => P i) :
    o.check.Checks fun _ => ∀ s ∈ o.stitches,
      ∀ j ∈ innerItems s.body.items, P j := by
  refine Checks.bind
    (Checks.forM (Declaration.checks o) _) fun _ => ?_
  refine (Checks.forM
    (fun k => Knot.checks_everywhere o k (hCheck k.name)) _).mono
      fun _ hKnots _ => ?_
  intro s hStitch
  rcases List.mem_flatMap.mp hStitch with ⟨k, hKnot, hOwn⟩
  exact hKnots k hKnot s hOwn

end BranchingStory

------------------------------------------------------------
-- Fallbacks Are Single
------------------------------------------------------------

namespace BranchingStory

open Reading

/- More than one fallback is an error. -/
theorem checks_fallbackCount
    (choices : List Choice) :
    (checkFallbackCount choices).Checks fun _ =>
      choices.length ≤ 1 := by
  match choices with
  | [] => exact Checks.pure (Nat.zero_le 1)
  | [c] => exact Checks.pure (Nat.le_refl 1)
  | first :: second :: rest =>
      exact Checks.error rfl second.line

/- A part that is checked has one fallback at most. -/
theorem Item.checks_single
    (o : Outline)
    (knot : String)
    (i : Item) :
    (i.check o knot).Checks fun _ => i.fallbacks.length ≤ 1 := by
  cases i with
  | choices id depth line branches =>
      refine Checks.bind (checks_fallbackCount _) fun _ => ?_
      refine Checks.bind (Checks.forM checks_fallback _)
        fun _ => ?_
      refine (Checks.forM (Choice.checks o knot) _).mono
        fun _ _ _ hCount => ?_
      rw [List.filter_map, List.length_map] at hCount
      exact hCount
  | line id content =>
      exact (Item.checks o knot _).mono
        fun _ _ => Nat.zero_le 1
  | gather id depth content =>
      exact (Item.checks o knot _).mono
        fun _ _ => Nat.zero_le 1
  | assign id name value line =>
      exact (Item.checks o knot _).mono
        fun _ _ => Nat.zero_le 1

end BranchingStory

------------------------------------------------------------
-- Resolved Parts
------------------------------------------------------------

namespace BranchingStory

variable (o : Outline)
variable (knot : String)

mutual

/- The parts within a resolved part are resolved parts. -/
theorem Item.inner_resolve
    (i : Item) :
    (i.resolve o knot).inner =
      i.inner.map (Item.resolve o knot) := by
  cases i with
  | choices id depth line branches =>
      simp [Item.resolve, Item.inner,
        innerOfBranches_resolve branches]
  | line id content => simp [Item.resolve, Item.inner]
  | gather id depth content => simp [Item.resolve, Item.inner]
  | assign id name value line =>
      simp [Item.resolve, Item.inner]

/- The same for a branch. -/
theorem Branch.inner_resolve
    (b : Branch) :
    (b.resolve o knot).inner =
      b.inner.map (Item.resolve o knot) := by
  rcases b with ⟨id, outputId, depth, choice, items⟩
  simp [Branch.resolve, Branch.inner, Choice.resolve,
    Item.resolve, innerItems_resolve items]

/- The same for branches. -/
theorem innerOfBranches_resolve
    (bs : List Branch) :
    innerOfBranches (resolveBranches o knot bs) =
      (innerOfBranches bs).map (Item.resolve o knot) := by
  cases bs with
  | nil => simp [resolveBranches, innerOfBranches]
  | cons b bs =>
      simp [resolveBranches, innerOfBranches,
        Branch.inner_resolve b, innerOfBranches_resolve bs]

/- The same for a content. -/
theorem innerItems_resolve
    (items : List Item) :
    innerItems (resolveItems o knot items) =
      (innerItems items).map (Item.resolve o knot) := by
  cases items with
  | nil => simp [resolveItems]
  | cons i is =>
      simp [resolveItems, Item.inner_resolve i,
        innerItems_resolve is]

end

/- A resolved branch is a fallback if it was one. -/
theorem Branch.fallback_resolve
    (b : Branch) :
    (b.resolve o knot).choice.fallback = b.choice.fallback := by
  rcases b with ⟨id, outputId, depth, choice, items⟩
  rw [Branch.resolve]
  rfl

/- Resolving keeps the number of fallbacks. -/
theorem Item.length_fallbacks_resolve
    (i : Item) :
    (i.resolve o knot).fallbacks.length =
      i.fallbacks.length := by
  have hBranches (bs : List Branch) :
      ((resolveBranches o knot bs).filter fun b =>
        b.choice.fallback).length =
          (bs.filter fun b => b.choice.fallback).length := by
    induction bs with
    | nil => rw [resolveBranches]
    | cons b bs ih =>
        rw [resolveBranches, List.filter_cons, List.filter_cons,
          Branch.fallback_resolve]
        split
        · exact congrArg Nat.succ ih
        · exact ih
  cases i with
  | choices id depth line branches =>
      rw [Item.resolve]
      exact hBranches branches
  | line id content => rw [Item.resolve]; rfl
  | gather id depth content => rw [Item.resolve]; rfl
  | assign id name value line => rw [Item.resolve]; rfl

/- The stitches of a resolved outline are resolved stitches. -/
theorem Outline.mem_stitches_resolve
    {s : Stitch}
    (hStitch : s ∈ o.resolve.stitches) :
    ∃ s' ∈ o.stitches, ∃ knot, s = s'.resolve o knot := by
  rcases List.mem_flatMap.mp hStitch with ⟨k, hKnot, hOwn⟩
  rw [resolve, Table.values_mapValues] at hKnot
  rcases List.mem_map.mp hKnot with ⟨k', hKnot', rfl⟩
  rw [Knot.resolve, Table.values_mapValues] at hOwn
  rcases List.mem_map.mp hOwn with ⟨s', hStitch', rfl⟩
  exact ⟨s', List.mem_flatMap.mpr ⟨k', hKnot', hStitch'⟩, _,
    rfl⟩

/- An outline that is read without errors has been checked. -/
theorem readOutline_checks
    {source : String}
    {o : Outline}
    {d d' : Draft}
    (hRun : (readOutline source).run d = .ok (some o, d')) :
    ∃ d₁, o.check.run d₁ = .ok ((), d') := by
  rcases Reading.run_bind_ok.mp hRun with ⟨ls, d₁, _, hRun⟩
  rcases Reading.run_bind_ok.mp hRun with ⟨o?, d₂, _, hRun⟩
  cases o? with
  | none => cases Reading.run_pure_ok.mp hRun |>.1
  | some o' =>
      rcases Reading.run_bind_ok.mp hRun with
        ⟨_, d₃, hCheck, hRun⟩
      rcases Reading.run_pure_ok.mp hRun with ⟨hSame, rfl⟩
      cases hSame
      exact ⟨d₂, hCheck⟩

/-
  Every set of choices in a story that can be read has one
  fallback at most.
-/
theorem Story.length_fallbacks_le_one
    {source : String}
    {story : Story}
    (hRead : Story.read source = .ok story)
    {i : Item}
    (hPart : i ∈ story.outline.parts) :
    i.fallbacks.length ≤ 1 := by
  have hAttached := (Story.isSound_of_read hRead).attached
  rcases Story.read_eq_ok_iff.mp hRead with
    ⟨o, d, hRun, hNone, rfl⟩
  have hClean := Draft.any_isError_eq_false.mp hNone
  rcases readOutline_checks hRun with ⟨d₁, hCheck⟩
  have hChecked :=
    (o.checks_everywhere (Item.checks_single o) d₁ _ d
      hCheck).2 hClean
  rw [Outline.parts, Outline.bodies, hAttached, List.append_nil,
    List.flatMap_map] at hPart
  rcases List.mem_flatMap.mp hPart with ⟨s, hStitch, hInner⟩
  rcases o.mem_stitches_resolve hStitch with
    ⟨s', hStitch', knot, rfl⟩
  rw [Stitch.resolve, innerItems_resolve] at hInner
  rcases List.mem_map.mp hInner with ⟨j, hMem, rfl⟩
  rw [Item.length_fallbacks_resolve]
  exact hChecked s' hStitch' j hMem

end BranchingStory
