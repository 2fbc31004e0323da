import BranchingStory.Proofs.Moves

/-
  This file defines how the tree of a content is gone through:
  part by part, and at a set of choices into the branch that
  is selected and through to its end.  The frames of a story
  stand for what of such a tour is still to come.

  Key definitions include:
    * `Tour`
    * `itemsTour`
    * `framesTour`
    * `Position.Continues`

  Key theorems include:
    * `nodesOf_itemsTour_sublist`
    * `framesTour_cons`
    * `framesTour_take`
    * `Position.Continues.moves`
-/

------------------------------------------------------------
-- Tours
------------------------------------------------------------

namespace BranchingStory

/-
  What is told of a tour, and the selections that are left
  over at its end.  There are none if the tour is waiting for
  a further selection.
-/
structure Tour where
  events : List Event
  left? : Option (List Nat)
deriving DecidableEq, Repr

namespace Tour

/- A tour that goes on with another, unless it is waiting. -/
def andThen
    (t : Tour)
    (next : List Nat → Tour) : Tour :=
  match t.left? with
  | none => t
  | some sels =>
      ⟨t.events ++ (next sels).events, (next sels).left?⟩

/- A tour of which something else is told first. -/
def after
    (es : List Event)
    (t : Tour) : Tour :=
  ⟨es ++ t.events, t.left?⟩

end Tour

mutual

/-
  The tour through a part of the content.  At a set of choices
  the first selection tells the branch.
-/
def Item.tour : Item → List Nat → Tour
  | .line id _, sels => ⟨[.ran id], some sels⟩
  | .gather id _ _, sels => ⟨[.ran id], some sels⟩
  | .assign id _ _ _, sels => ⟨[.ran id], some sels⟩
  | .choices _ _ _ _, [] => ⟨[], none⟩
  | .choices _ _ _ branches, branch :: sels =>
      branchesTour branches branch sels

/- The tour through a branch, its output line first. -/
def Branch.tour : Branch → List Nat → Tour
  | .mk id outputId _ _ items, sels =>
      (itemsTour items sels).after [.took id, .ran outputId]

/- The tour through the branch of a given number. -/
def branchesTour : List Branch → Nat → List Nat → Tour
  | [], _, _ => ⟨[], none⟩
  | b :: bs, branch, sels =>
      if b.id = branch then Branch.tour b sels
      else branchesTour bs branch sels

/- The tour through a list of content, part by part. -/
def itemsTour : List Item → List Nat → Tour
  | [], sels => ⟨[], some sels⟩
  | i :: is, sels =>
      (Item.tour i sels).andThen fun left =>
        itemsTour is left

end

end BranchingStory

------------------------------------------------------------
-- Nodes And Selections
------------------------------------------------------------

namespace BranchingStory

open scoped List

namespace Event

/- The part that is executed, if one is. -/
def node? : Event → Option Nat
  | .ran id => some id
  | _ => none

/- The branch that is taken, if one is. -/
def branch? : Event → Option Nat
  | .took branch => some branch
  | _ => none

/- Whether a stitch is entered. -/
def isEntry : Event → Bool
  | .entered _ => true
  | _ => false

/- Whether a part is executed or a branch taken. -/
def isInner : Event → Bool
  | .ran _ => true
  | .took _ => true
  | _ => false

end Event

/- The parts that are executed, in their order. -/
def nodesOf
    (es : List Event) : List Nat :=
  es.filterMap Event.node?

/- The branches that are taken, in their order. -/
def selectionsOf
    (es : List Event) : List Nat :=
  es.filterMap Event.branch?

@[simp] theorem nodesOf_append
    (es es' : List Event) :
    nodesOf (es ++ es') = nodesOf es ++ nodesOf es' := by
  simp [nodesOf]

@[simp] theorem selectionsOf_append
    (es es' : List Event) :
    selectionsOf (es ++ es') =
      selectionsOf es ++ selectionsOf es' := by
  simp [selectionsOf]

namespace Tour

variable {t : Tour}
variable {next : List Nat → Tour}

/- A tour that is not waiting goes on with the next one. -/
theorem some_andThen
    (es : List Event)
    (sels : List Nat) :
    (Tour.mk es (some sels)).andThen next =
      (next sels).after es := rfl

/- What is told first of a tour is told first of a longer one. -/
theorem after_andThen
    (es : List Event)
    (t : Tour) :
    (t.after es).andThen next =
      (t.andThen next).after es := by
  rcases t with ⟨es', left?⟩
  cases left? with
  | none => rfl
  | some sels => simp [andThen, after]

/- A tour that goes on with nothing stays the same. -/
theorem andThen_nothing
    (t : Tour) :
    (t.andThen fun sels => ⟨[], some sels⟩) = t := by
  rcases t with ⟨es, left?⟩
  cases left? with
  | none => rfl
  | some sels => simp [andThen]

/- Tours go on with one another in any grouping. -/
theorem andThen_assoc
    (t : Tour)
    (next' : List Nat → Tour) :
    (t.andThen next).andThen next' =
      t.andThen fun sels => (next sels).andThen next' := by
  rcases t with ⟨es, left?⟩
  cases left? with
  | none => rfl
  | some sels => exact after_andThen es (next sels)

/- More may be told first. -/
theorem after_after
    (es es' : List Event)
    (t : Tour) :
    (t.after es').after es = t.after (es ++ es') := by
  simp [after]

/- A tour executes no more than its two parts. -/
theorem nodesOf_andThen_sublist
    {ns ms : List Nat}
    (hFirst : nodesOf t.events <+ ns)
    (hThen : ∀ sels, nodesOf (next sels).events <+ ms) :
    nodesOf (t.andThen next).events <+ ns ++ ms := by
  rcases t with ⟨es, left?⟩
  cases left? with
  | none => exact hFirst.trans (List.sublist_append_left ns ms)
  | some sels =>
      rw [andThen, nodesOf_append]
      exact hFirst.append (hThen sels)

end Tour

mutual

/- A tour executes parts in their order, none of them twice. -/
theorem Item.nodesOf_tour_sublist
    (i : Item)
    (sels : List Nat) :
    nodesOf (i.tour sels).events <+ i.ids := by
  cases i with
  | line id content => simp [Item.tour, nodesOf, Event.node?]
  | gather id depth content =>
      simp [Item.tour, nodesOf, Event.node?]
  | assign id name value line =>
      simp [Item.tour, nodesOf, Event.node?]
  | choices id depth line branches =>
      rw [Item.ids_choices]
      cases sels with
      | nil => simp [Item.tour, nodesOf]
      | cons branch sels =>
          rw [Item.tour]
          exact (nodesOf_branchesTour_sublist branches branch
            sels).cons id

/- The same for a branch. -/
theorem Branch.nodesOf_tour_sublist
    (b : Branch)
    (sels : List Nat) :
    nodesOf (b.tour sels).events <+ b.ids := by
  rcases b with ⟨id, outputId, depth, choice, items⟩
  rw [Branch.ids_mk]
  have hItems := nodesOf_itemsTour_sublist items sels
  simp only [Branch.tour, Tour.after, nodesOf_append]
  exact (hItems.cons id).cons_cons outputId

/- The same for branches. -/
theorem nodesOf_branchesTour_sublist
    (bs : List Branch)
    (branch : Nat)
    (sels : List Nat) :
    nodesOf (branchesTour bs branch sels).events <+
      branchIds bs := by
  cases bs with
  | nil => simp [branchesTour, nodesOf]
  | cons b bs =>
      rw [branchesTour, branchIds_cons]
      split
      · exact (Branch.nodesOf_tour_sublist b sels).trans
          (List.sublist_append_left _ _)
      · exact (nodesOf_branchesTour_sublist bs branch
          sels).trans (List.sublist_append_right _ _)

/- The same for a content. -/
theorem nodesOf_itemsTour_sublist
    (items : List Item)
    (sels : List Nat) :
    nodesOf (itemsTour items sels).events <+
      itemIds items := by
  cases items with
  | nil => simp [itemsTour, nodesOf]
  | cons i is =>
      rw [itemsTour, itemIds_cons]
      exact Tour.nodesOf_andThen_sublist
        (Item.nodesOf_tour_sublist i sels)
        fun left => nodesOf_itemsTour_sublist is left

end

end BranchingStory

------------------------------------------------------------
-- Tours Of Frames
------------------------------------------------------------

namespace BranchingStory

variable {o : Outline}

/- The tour through a part that is no set of choices. -/
theorem Item.tour_of_isChoices
    {i : Item}
    (hItem : i.isChoices = false)
    (sels : List Nat) :
    i.tour sels = ⟨[.ran i.id], some sels⟩ := by
  cases i with
  | line id content => simp [tour, Item.id]
  | gather id depth content => simp [tour, Item.id]
  | assign id name value line => simp [tour, Item.id]
  | choices id depth line branches => cases hItem

/- The tour through a branch is one through its body. -/
theorem Branch.tour_eq
    (b : Branch)
    (sels : List Nat) :
    b.tour sels =
      (itemsTour b.body sels).after [.took b.id] := by
  rcases b with ⟨id, outputId, depth, choice, items⟩
  simp [tour, Branch.body, Branch.items, Branch.outputId,
    Branch.id, itemsTour, Item.tour, Tour.andThen,
    Tour.after]

/- Where no number stands twice, a number selects a branch. -/
theorem branchesTour_of_mem
    {bs : List Branch}
    (hNodup : (bs.map Branch.id).Nodup)
    {b : Branch}
    (hMem : b ∈ bs)
    (sels : List Nat) :
    branchesTour bs b.id sels = b.tour sels := by
  induction bs with
  | nil => cases hMem
  | cons c cs ih =>
      rw [List.map_cons, List.nodup_cons] at hNodup
      rw [branchesTour]
      rcases List.mem_cons.mp hMem with rfl | hRest
      · rw [if_pos rfl]
      · have hOther : c.id ≠ b.id := by
          intro hSame
          exact hNodup.1
            (hSame ▸ List.mem_map_of_mem hRest)
        rw [if_neg hOther]
        exact ih hNodup.2 hRest

/- What is still to come of a block. -/
def Frame.remaining
    (o : Outline)
    (f : Frame) : List Item :=
  ((o.block? f.block).getD []).drop f.index.toNat

/- The tour through what is still to come in all frames. -/
def framesTour
    (o : Outline) : List Frame → List Nat → Tour
  | [], sels => ⟨[], some sels⟩
  | f :: fs, sels =>
      (itemsTour (f.remaining o) sels).andThen
        (framesTour o fs)

/- The innermost block is gone through first. -/
theorem framesTour_cons
    (f : Frame)
    (fs : List Frame)
    (sels : List Nat) :
    framesTour o (f :: fs) sels =
      (itemsTour (f.remaining o) sels).andThen
        (framesTour o fs) := rfl

/- What comes next is the part that a story stands at. -/
theorem Position.IsCoherent.remaining_eq
    {p : Position}
    (hCoherent : p.IsCoherent o)
    {f : Frame}
    {fs : List Frame}
    {i : Item}
    (hAt : p.IsAt o f fs i) :
    f.remaining o = i :: f.past.remaining o := by
  rcases hCoherent.index_lt hAt with
    ⟨items, hBlock, hNatural, hBound, hItem⟩
  rcases List.getElem?_eq_some_iff.mp hItem with
    ⟨hIndex, hSame⟩
  have hNext : (f.index + 1).toNat = f.index.toNat + 1 := by
    omega
  have hBlock' : o.block? f.past.block = some items := hBlock
  rw [Frame.remaining, Frame.remaining, hBlock, hBlock',
    Option.getD_some, List.drop_eq_getElem_cons hIndex, hSame]
  change _ = i :: items.drop (f.index + 1).toNat
  rw [hNext]

end BranchingStory

------------------------------------------------------------
-- Moves Along A Tour
------------------------------------------------------------

namespace BranchingStory

open scoped List

variable {o : Outline}
variable {p p' : Position}

namespace Position

/- The story executes the part that its tour comes to. -/
theorem IsCoherent.framesTour_past
    (hCoherent : p.IsCoherent o)
    {f : Frame}
    {fs : List Frame}
    {i : Item}
    (hAt : p.IsAt o f fs i)
    (hItem : i.isChoices = false)
    (sels : List Nat) :
    framesTour o (f :: fs) sels =
      (framesTour o (f.past :: fs) sels).after
        [.ran i.id] := by
  rw [framesTour_cons, hCoherent.remaining_eq hAt, itemsTour,
    Item.tour_of_isChoices hItem, Tour.andThen_assoc,
    Tour.some_andThen, framesTour_cons]

/- The story takes the branch that is selected. -/
theorem IsCoherent.framesTour_take
    (hCoherent : p.IsCoherent o)
    (hNodup : o.ids.Nodup)
    {f : Frame}
    {fs : List Frame}
    {id depth line : Nat}
    {branches : List Branch}
    (hAt : p.IsAt o f fs (.choices id depth line branches))
    {b : Branch}
    (hBranch : b ∈ branches)
    (sels : List Nat) :
    framesTour o (f :: fs) (b.id :: sels) =
      (framesTour o (framesInto b.id f fs) sels).after
        [.took b.id] := by
  rcases hCoherent.item_mem hAt with ⟨items, hBlock, hItem⟩
  have hSet :=
    Outline.nodup_branches_block hNodup hBlock hItem
  have hBody :
      Frame.remaining o ⟨b.id, 0⟩ = b.body := by
    rw [Frame.remaining, Outline.block?_branch hNodup
      (hCoherent.branches_subset hAt hBranch)]
    rfl
  rw [framesTour_cons, hCoherent.remaining_eq hAt, itemsTour,
    Item.tour, branchesTour_of_mem hSet hBranch,
    Branch.tour_eq, Tour.after_andThen, Tour.after_andThen,
    Tour.andThen_assoc, framesInto, framesTour_cons, hBody]
  rfl

/- At a set of choices a tour waits for a selection. -/
theorem IsCoherent.framesTour_wait
    (hCoherent : p.IsCoherent o)
    {f : Frame}
    {fs : List Frame}
    {id depth line : Nat}
    {branches : List Branch}
    (hAt :
      p.IsAt o f fs (.choices id depth line branches)) :
    framesTour o (f :: fs) [] = ⟨[], none⟩ := by
  rw [framesTour_cons, hCoherent.remaining_eq hAt, itemsTour,
    Item.tour]
  rfl

/- A block at its end adds nothing to a tour. -/
theorem framesTour_leave
    {f : Frame}
    {items : List Item}
    (hBlock : o.block? f.block = some items)
    (hEnd : items.length ≤ f.index)
    (fs : List Frame)
    (sels : List Nat) :
    framesTour o (f :: fs) sels = framesTour o fs sels := by
  have hNothing : f.remaining o = [] := by
    rw [Frame.remaining, hBlock, Option.getD_some]
    exact List.drop_eq_nil_of_le (by omega)
  rw [framesTour_cons, hNothing, itemsTour,
    Tour.some_andThen]
  rfl

end Position

/-
  Whether what has been told since a stitch was entered and
  what the frames still stand for make up a tour through the
  stitch, whatever is selected from now on.
-/
structure Position.Continues
    (o : Outline)
    (stitch : Stitch)
    (es : List Event)
    (p : Position) : Prop where
  inside : p.frames ≠ []
  inner : ∀ e ∈ es, e.isInner = true
  tour : ∀ future,
    itemsTour stitch.body.items (selectionsOf es ++ future) =
      (framesTour o p.frames future).after es

/-
  Whether what has been told since a stitch was entered is the
  beginning of a tour through it: parts that are executed and
  branches that are taken, in the order of the tour and none
  of them twice, up to a divert or the end of the content.  At
  the end the tour is complete.
-/
structure Stitch.IsToured
    (stitch : Stitch)
    (es close : List Event) : Prop where
  inner : ∀ e ∈ es, e.isInner = true
  closed : close = [] ∨ close = [.ended] ∨
    close = [.left] ∧ ∃ before id, es = before ++ [.ran id]
  begun : ∀ future, es <+:
    (itemsTour stitch.body.items
      (selectionsOf es ++ future)).events
  ended : close = [.ended] →
    itemsTour stitch.body.items (selectionsOf es) =
      ⟨es, some []⟩

namespace Position.Continues

variable {stitch : Stitch}
variable {es new : List Event}

/- A tour begins where a stitch is entered. -/
theorem enter
    (hNodup : o.ids.Nodup)
    (hStitch : o.stitch? p.location = some stitch) :
    { p with
      frames := [⟨stitch.body.id, 0⟩] }.Continues o stitch
        [] := by
  refine ⟨by simp, by simp, ?_⟩
  intro future
  have hRemaining :
      Frame.remaining o ⟨stitch.body.id, 0⟩ =
        stitch.body.items := by
    rw [Frame.remaining, Outline.block?_body hNodup
      (Outline.body_mem_bodies hStitch)]
    rfl
  change itemsTour stitch.body.items future =
    (framesTour o [⟨stitch.body.id, 0⟩] future).after []
  rw [framesTour_cons, hRemaining]
  exact (Tour.andThen_nothing _).symm

/- What goes on is the beginning of a tour. -/
theorem isToured
    (hContinues : p.Continues o stitch es) :
    stitch.IsToured es [] where
  inner := hContinues.inner
  closed := Or.inl rfl
  begun := by
    intro future
    rw [hContinues.tour future]
    exact List.prefix_append es _
  ended := by
    intro hEnded
    cases hEnded

/- A tour goes on with what is told of its next move. -/
theorem advance
    (hContinues : p.Continues o stitch es)
    (hInside : p'.frames ≠ [])
    (hInner : ∀ e ∈ new, e.isInner = true)
    (hTour : ∀ future,
      framesTour o p.frames (selectionsOf new ++ future) =
        (framesTour o p'.frames future).after new) :
    p'.Continues o stitch (es ++ new) := by
  refine ⟨hInside, ?_, ?_⟩
  · intro e hMem
    rcases List.mem_append.mp hMem with hOld | hNew
    · exact hContinues.inner e hOld
    · exact hInner e hNew
  · intro future
    rw [selectionsOf_append, List.append_assoc,
      hContinues.tour, hTour, Tour.after_after]

/- A tour waits while choices are presented. -/
theorem waits
    (hContinues : p.Continues o stitch es)
    (hCoherent : p.IsCoherent o)
    (hPresenting : p.status = .presenting) :
    itemsTour stitch.body.items (selectionsOf es) =
      ⟨es, none⟩ := by
  rcases hCoherent.offered hPresenting with
    ⟨f, fs, id, depth, line, branches, hAt, _⟩
  have hTour := hContinues.tour []
  rw [List.append_nil, hAt.1,
    hCoherent.framesTour_wait hAt] at hTour
  simpa [Tour.after] using hTour

/- A part that is executed is the next one of the tour. -/
theorem past
    (hContinues : p.Continues o stitch es)
    (hCoherent : p.IsCoherent o)
    {f : Frame}
    {fs : List Frame}
    {i : Item}
    (hAt : p.IsAt o f fs i)
    (hItem : i.isChoices = false)
    (hFrames : p'.frames = f.past :: fs) :
    p'.Continues o stitch (es ++ [.ran i.id]) := by
  apply hContinues.advance
  · simp [hFrames]
  · simp [Event.isInner]
  · intro future
    rw [hAt.1, hFrames]
    exact hCoherent.framesTour_past hAt hItem future

/- A branch that is taken is selected by the tour. -/
theorem take
    (hContinues : p.Continues o stitch es)
    (hCoherent : p.IsCoherent o)
    (hNodup : o.ids.Nodup)
    {f : Frame}
    {fs : List Frame}
    {id depth line : Nat}
    {branches : List Branch}
    (hAt : p.IsAt o f fs (.choices id depth line branches))
    {b : Branch}
    (hBranch : b ∈ branches)
    (hFrames : p'.frames = framesInto b.id f fs) :
    p'.Continues o stitch (es ++ [.took b.id]) := by
  apply hContinues.advance
  · simp [hFrames, framesInto]
  · simp [Event.isInner]
  · intro future
    rw [hAt.1, hFrames]
    exact hCoherent.framesTour_take hNodup hAt hBranch future

/- A part that ends with a divert closes the tour. -/
theorem left
    (hContinues : p.Continues o stitch es)
    (hCoherent : p.IsCoherent o)
    {f : Frame}
    {fs : List Frame}
    {i : Item}
    (hAt : p.IsAt o f fs i)
    (hItem : i.isChoices = false) :
    stitch.IsToured (es ++ [.ran i.id]) [.left] := by
  have hPast :
      Position.Continues o stitch (es ++ [.ran i.id])
        { p with frames := f.past :: fs } :=
    hContinues.past hCoherent hAt hItem rfl
  refine ⟨hPast.inner, Or.inr (Or.inr ⟨rfl, es, i.id, rfl⟩),
    hPast.isToured.begun, ?_⟩
  intro hEnded
  cases hEnded

/- At the end of the content the tour is complete. -/
theorem finish
    (hContinues : p.Continues o stitch es)
    {f : Frame}
    {items : List Item}
    (hFrames : p.frames = [f])
    (hBlock : o.block? f.block = some items)
    (hEnd : items.length ≤ f.index) :
    stitch.IsToured es [.ended] := by
  refine ⟨hContinues.inner, Or.inr (Or.inl rfl),
    hContinues.isToured.begun, ?_⟩
  intro _
  have hTour := hContinues.tour []
  rw [List.append_nil, hFrames,
    Position.framesTour_leave hBlock hEnd] at hTour
  simpa [framesTour, Tour.after] using hTour

/-
  Every move either goes on with the tour or closes it and
  leaves the stitch.
-/
theorem moves
    (hContinues : p.Continues o stitch es)
    (hMoves : p.Moves o new p')
    (hNodup : o.ids.Nodup)
    (hCoherent : p.IsCoherent o) :
    p'.Continues o stitch (es ++ new) ∨
      p'.frames = [] ∧ ∃ inner close,
        es ++ new = inner ++ close ∧ close ≠ [] ∧
          stitch.IsToured inner close := by
  have hStay
      (hFrames : p'.frames ≠ [])
      (hTour : ∀ future, framesTour o p.frames future =
        framesTour o p'.frames future) :
      p'.Continues o stitch (es ++ []) :=
    hContinues.advance hFrames (by simp) hTour
  cases hMoves with
  | enter stitch hFrames hStitch =>
      exact absurd hFrames hContinues.inside
  | leave f g fs items hFrames hBlock hEnd =>
      refine Or.inl (hStay (by simp) ?_)
      intro future
      rw [hFrames]
      exact Position.framesTour_leave hBlock hEnd _ future
  | finish f items hFrames hBlock hEnd =>
      exact Or.inr ⟨rfl, es, [.ended], rfl, by simp,
        hContinues.finish hFrames hBlock hEnd⟩
  | pass f fs i hAt hItem =>
      exact Or.inl (hContinues.past hCoherent hAt hItem rfl)
  | divert f fs i a hAt hItem hAddress =>
      exact Or.inr ⟨rfl, es ++ [.ran i.id], [.left], by simp,
        by simp, hContinues.left hCoherent hAt hItem⟩
  | conclude f fs i hAt hItem =>
      exact Or.inr ⟨rfl, es ++ [.ran i.id], [.left], by simp,
        by simp, hContinues.left hCoherent hAt hItem⟩
  | present f fs id depth line branches offers hAt hOffers
      hOffered =>
      exact Or.inl (hStay hContinues.inside fun _ => rfl)
  | take f fs id depth line branches b hAt hBranch =>
      exact Or.inl
        (hContinues.take hCoherent hNodup hAt hBranch rfl)
  | stick f fs id depth line branches hAt =>
      exact Or.inl (hStay hContinues.inside fun _ => rfl)

end Position.Continues

end BranchingStory
