import BranchingStory.Proofs.Rendering

/-
  This file tells where a story can be and how it moves on.
  The frames of a story lead through its content: each block
  goes on inside the set of choices that the frame around it
  has come past.  Every move keeps it so.

  Key definitions include:
    * `Frame.IsWithin`
    * `Position.IsCoherent`
    * `Event`
    * `Position.IsAt`
    * `Position.Moves`

  Key theorems include:
    * `Position.isCoherent_of_ready`
    * `Position.IsCoherent.take`
    * `Position.Moves.isCoherent`
-/

------------------------------------------------------------
-- Coherent Positions
------------------------------------------------------------

namespace BranchingStory

/-
  Whether a block goes on inside another: the part that the
  outer frame has come past is a set of choices, and the inner
  block is one of its branches.
-/
def Frame.IsWithin
    (o : Outline)
    (inner outer : Frame) : Prop :=
  ∃ items id depth line branches,
    o.block? outer.block = some items ∧ 0 < outer.index ∧
      items[(outer.index - 1).toNat]? =
        some (.choices id depth line branches) ∧
      inner.block ∈ branches.map Branch.id

namespace Position

/-
  Whether the innermost frame stands at a part of the content,
  with other frames around it.
-/
def IsAt
    (o : Outline)
    (p : Position)
    (f : Frame)
    (fs : List Frame)
    (i : Item) : Prop :=
  p.frames = f :: fs ∧ ∃ items,
    o.block? f.block = some items ∧
      itemAt? items f.index = some i

/-
  Whether a position fits the story.  There are offers exactly
  while choices are presented, and then the story stands at a
  set of choices that has these branches.  The frames lead
  from the stitch at the location to the innermost block.
-/
structure IsCoherent
    (o : Outline)
    (p : Position) : Prop where
  location : o.hasAddress p.location = true
  presenting : p.status = .presenting ↔ p.offers ≠ []
  finished : p.status = .finished → p.frames = []
  root : ∀ id,
    (p.frames.map Frame.block).getLast? = some id →
      ∃ stitch, o.stitch? p.location = some stitch ∧
        stitch.body.id = id
  places : ∀ f ∈ p.frames, ∃ items,
    o.block? f.block = some items ∧
      0 ≤ f.index ∧ f.index ≤ items.length
  nested : p.frames.IsChain (Frame.IsWithin o)
  offered : p.status = .presenting →
    ∃ f fs id depth line branches,
      p.IsAt o f fs (.choices id depth line branches) ∧
        (p.offers.map Offer.branch).Sublist
          (offerable branches) ∧
        (p.offers.map Offer.branch).Nodup

end Position

end BranchingStory

------------------------------------------------------------
-- Moves
------------------------------------------------------------

namespace BranchingStory

/-
  What can be told of a story while it goes on: that a stitch
  is entered, a part of its content executed or a branch
  taken, and that the stitch is left by a divert or has come
  to its end.
-/
inductive Event where
  | entered (a : Address)
  | ran (id : Nat)
  | took (branch : Nat)
  | left
  | ended
deriving DecidableEq, Repr

/- A frame that has come past the part it stood at. -/
def Frame.past
    (f : Frame) : Frame :=
  { f with index := f.index + 1 }

namespace Position

/- The frames after a branch has been taken. -/
def framesInto
    (branch : Nat)
    (f : Frame)
    (fs : List Frame) : List Frame :=
  ⟨branch, 0⟩ :: f.past :: fs

/-
  How a story can move on in one step, and what can be told of
  it.
-/
inductive Moves
    (o : Outline)
    (p : Position) : List Event → Position → Prop where
  | enter
      (stitch : Stitch)
      (hFrames : p.frames = [])
      (hStitch : o.stitch? p.location = some stitch) :
      Moves o p [.entered p.location]
        { p with frames := [⟨stitch.body.id, 0⟩] }
  | leave
      (f g : Frame)
      (fs : List Frame)
      (items : List Item)
      (hFrames : p.frames = f :: g :: fs)
      (hBlock : o.block? f.block = some items)
      (hEnd : items.length ≤ f.index) :
      Moves o p [] { p with frames := g :: fs }
  | finish
      (f : Frame)
      (items : List Item)
      (hFrames : p.frames = [f])
      (hBlock : o.block? f.block = some items)
      (hEnd : items.length ≤ f.index) :
      Moves o p [.ended]
        { p with status := .finished, frames := [] }
  | pass
      (f : Frame)
      (fs : List Frame)
      (i : Item)
      (hAt : p.IsAt o f fs i)
      (hItem : i.isChoices = false) :
      Moves o p [.ran i.id] { p with frames := f.past :: fs }
  | divert
      (f : Frame)
      (fs : List Frame)
      (i : Item)
      (a : Address)
      (hAt : p.IsAt o f fs i)
      (hItem : i.isChoices = false)
      (hAddress : o.hasAddress a = true) :
      Moves o p [.ran i.id, .left]
        { p with location := a, frames := [] }
  | conclude
      (f : Frame)
      (fs : List Frame)
      (i : Item)
      (hAt : p.IsAt o f fs i)
      (hItem : i.isChoices = false) :
      Moves o p [.ran i.id, .left]
        { p with status := .finished, frames := [] }
  | present
      (f : Frame)
      (fs : List Frame)
      (id depth line : Nat)
      (branches : List Branch)
      (offers : List Offer)
      (hAt : p.IsAt o f fs (.choices id depth line branches))
      (hOffers : offers ≠ [])
      (hOffered : (offers.map Offer.branch).Sublist
        (offerable branches)) :
      Moves o p []
        { p with offers := offers, status := .presenting }
  | take
      (f : Frame)
      (fs : List Frame)
      (id depth line : Nat)
      (branches : List Branch)
      (b : Branch)
      (hAt : p.IsAt o f fs (.choices id depth line branches))
      (hBranch : b ∈ branches) :
      Moves o p [.took b.id]
        { p with frames := framesInto b.id f fs }
  | stick
      (f : Frame)
      (fs : List Frame)
      (id depth line : Nat)
      (branches : List Branch)
      (hAt :
        p.IsAt o f fs (.choices id depth line branches)) :
      Moves o p [] p

end Position

end BranchingStory

------------------------------------------------------------
-- Moves Keep Positions Coherent
------------------------------------------------------------

namespace BranchingStory

variable {o : Outline}
variable {p : Position}
variable {f : Frame}
variable {fs : List Frame}

/- What a block goes on inside is told by its number alone. -/
theorem isChain_replace_head
    {f' : Frame}
    (hBlock : f'.block = f.block)
    (hChain : (f :: fs).IsChain (Frame.IsWithin o)) :
    (f' :: fs).IsChain (Frame.IsWithin o) := by
  cases fs with
  | nil => exact List.IsChain.singleton f'
  | cons g fs =>
      rw [List.isChain_cons_cons] at hChain ⊢
      refine ⟨?_, hChain.2⟩
      rcases hChain.1 with
        ⟨items, id, depth, line, branches, hOuter⟩
      rw [← hBlock] at hOuter
      exact ⟨items, id, depth, line, branches, hOuter⟩

namespace Position

/- The place of a part in a block is within the block. -/
theorem IsCoherent.index_lt
    (hCoherent : p.IsCoherent o)
    {i : Item}
    (hAt : p.IsAt o f fs i) :
    ∃ items, o.block? f.block = some items ∧
      0 ≤ f.index ∧ f.index < items.length ∧
        items[f.index.toNat]? = some i := by
  rcases hAt with ⟨hFrames, items, hBlock, hItem⟩
  rcases
      hCoherent.places f (hFrames ▸ List.mem_cons_self) with
    ⟨items', hBlock', hNatural, _⟩
  rw [itemAt?, if_pos hNatural] at hItem
  rcases List.getElem?_eq_some_iff.mp hItem with ⟨hBound, _⟩
  exact ⟨items, hBlock, hNatural, by omega, hItem⟩

/- Every part that a story stands at is among its leaves. -/
theorem IsCoherent.item_mem
    (hCoherent : p.IsCoherent o)
    {i : Item}
    (hAt : p.IsAt o f fs i) :
    ∃ items, o.block? f.block = some items ∧ i ∈ items := by
  rcases hCoherent.index_lt hAt with
    ⟨items, hBlock, _, _, hItem⟩
  exact ⟨items, hBlock, List.mem_of_getElem? hItem⟩

/- The branches that a story stands at are its branches. -/
theorem IsCoherent.branches_subset
    (hCoherent : p.IsCoherent o)
    {id depth line : Nat}
    {branches : List Branch}
    (hAt :
      p.IsAt o f fs (.choices id depth line branches)) :
    branches ⊆ o.branches := by
  rcases hCoherent.item_mem hAt with ⟨items, hBlock, hItem⟩
  exact Outline.branches_block_subset hBlock hItem

/- What is on offer leads into branches that are stood at. -/
theorem IsCoherent.branch_of_offer
    (hCoherent : p.IsCoherent o)
    {x : Offer}
    (hMem : x ∈ p.offers) :
    ∃ f fs id depth line branches b,
      p.IsAt o f fs (.choices id depth line branches) ∧
        b ∈ branches ∧ b.id = x.branch := by
  have hPresenting :=
    hCoherent.presenting.mpr (List.ne_nil_of_mem hMem)
  rcases hCoherent.offered hPresenting with
    ⟨f, fs, id, depth, line, branches, hAt, hSublist, _⟩
  rcases
      mem_of_offerable
        (hSublist.subset (List.mem_map_of_mem hMem)) with
    ⟨b, hBranch, hId⟩
  exact ⟨f, fs, id, depth, line, branches, b, hAt, hBranch,
    hId⟩

/- Where nothing is on offer, the frames are to be right. -/
theorem isCoherent_of_ready
    {a : Address}
    {frames : List Frame}
    (hAddress : o.hasAddress a = true)
    (hRoot : ∀ id,
      (frames.map Frame.block).getLast? = some id →
        ∃ stitch, o.stitch? a = some stitch ∧
          stitch.body.id = id)
    (hPlaces : ∀ f ∈ frames, ∃ items,
      o.block? f.block = some items ∧
        0 ≤ f.index ∧ f.index ≤ items.length)
    (hNested : frames.IsChain (Frame.IsWithin o)) :
    IsCoherent o ⟨a, .ready, frames, []⟩ where
  location := hAddress
  presenting := by simp
  finished := by
    intro hFinished
    cases hFinished
  root := hRoot
  places := hPlaces
  nested := hNested
  offered := by
    intro hPresenting
    cases hPresenting

/- The innermost frame may come past its part. -/
theorem IsCoherent.past
    (hCoherent : p.IsCoherent o)
    {i : Item}
    (hAt : p.IsAt o f fs i) :
    { p with
      frames := f.past :: fs
      status := .ready
      offers := [] }.IsCoherent o := by
  rcases hCoherent.index_lt hAt with
    ⟨items, hBlock, hNatural, hBound, _⟩
  have hFrames := hAt.1
  apply isCoherent_of_ready hCoherent.location
  · intro id hLast
    apply hCoherent.root id
    rw [hFrames]
    exact hLast
  · intro g hMem
    rcases List.mem_cons.mp hMem with rfl | hOuter
    · refine ⟨items, hBlock, ?_, ?_⟩
      · change 0 ≤ f.index + 1
        omega
      · change f.index + 1 ≤ items.length
        omega
    · exact hCoherent.places g
        (hFrames ▸ List.mem_cons_of_mem f hOuter)
  · have hChain := hCoherent.nested
    rw [hFrames] at hChain
    have hBlock' : f.past.block = f.block := rfl
    exact isChain_replace_head hBlock' hChain

/- The innermost frame may be left for the one around it. -/
theorem IsCoherent.leave
    {g : Frame}
    (hCoherent : p.IsCoherent o)
    (hFrames : p.frames = f :: g :: fs) :
    { p with
      frames := g :: fs
      status := .ready
      offers := [] }.IsCoherent o := by
  apply isCoherent_of_ready hCoherent.location
  · intro id hLast
    apply hCoherent.root id
    rw [hFrames, List.map_cons, List.map_cons,
      List.getLast?_cons_cons]
    exact hLast
  · intro g' hMem
    apply hCoherent.places g'
    rw [hFrames]
    exact List.mem_cons_of_mem f hMem
  · have hChain := hCoherent.nested
    rw [hFrames, List.isChain_cons_cons] at hChain
    exact hChain.2

/- A branch of a set of choices may be taken. -/
theorem IsCoherent.take
    (hCoherent : p.IsCoherent o)
    (hNodup : o.ids.Nodup)
    {id depth line : Nat}
    {branches : List Branch}
    (hAt : p.IsAt o f fs (.choices id depth line branches))
    {branch : Nat}
    (hBranch : branch ∈ branches.map Branch.id) :
    { p with
      frames := framesInto branch f fs
      status := .ready
      offers := [] }.IsCoherent o := by
  have hPast := hCoherent.past hAt
  rcases hCoherent.index_lt hAt with
    ⟨items, hBlock, hNatural, hBound, hItem⟩
  apply isCoherent_of_ready hCoherent.location
  · intro id hLast
    apply hPast.root id
    rw [framesInto, List.map_cons, List.map_cons,
      List.getLast?_cons_cons] at hLast
    exact hLast
  · intro g hMem
    rcases List.mem_cons.mp hMem with rfl | hOuter
    · rcases List.mem_map.mp hBranch with ⟨b, hTaken, rfl⟩
      refine ⟨b.body, ?_, Int.le_refl 0, ?_⟩
      · exact Outline.block?_branch hNodup
          (hCoherent.branches_subset hAt hTaken)
      · exact Int.natCast_nonneg _
    · exact hPast.places g hOuter
  · rw [framesInto, List.isChain_cons_cons]
    refine ⟨?_, hPast.nested⟩
    refine ⟨items, id, depth, line, branches, hBlock, ?_, ?_,
      hBranch⟩
    · change 0 < f.index + 1
      omega
    · change items[(f.index + 1 - 1).toNat]? = _
      rw [Int.add_sub_cancel]
      exact hItem

/- Branches of a set of choices may be presented. -/
theorem IsCoherent.present
    (hCoherent : p.IsCoherent o)
    (hNodup : o.ids.Nodup)
    {id depth line : Nat}
    {branches : List Branch}
    (hAt : p.IsAt o f fs (.choices id depth line branches))
    {offers : List Offer}
    (hOffers : offers ≠ [])
    (hOffered :
      (offers.map Offer.branch).Sublist (offerable branches)) :
    { p with
      offers := offers
      status := .presenting }.IsCoherent o where
  location := hCoherent.location
  presenting := by simpa using hOffers
  finished := by
    intro hFinished
    cases hFinished
  root := hCoherent.root
  places := hCoherent.places
  nested := hCoherent.nested
  offered := by
    intro _
    refine ⟨f, fs, id, depth, line, branches, hAt, hOffered,
      ?_⟩
    rcases hCoherent.item_mem hAt with ⟨items, hBlock, hItem⟩
    exact (nodup_offerable
      (Outline.nodup_branches_block hNodup hBlock
        hItem)).sublist hOffered

/- A story may go on anew at any of its places. -/
theorem isCoherent_of_frames_nil
    {a : Address}
    (hAddress : o.hasAddress a = true)
    {status : Status}
    (hStatus : status ≠ .presenting) :
    IsCoherent o ⟨a, status, [], []⟩ := by
  constructor
  · exact hAddress
  · simpa using hStatus
  · intro _
    rfl
  · intro id hLast
    cases hLast
  · intro f hMem
    cases hMem
  · exact List.IsChain.nil
  · intro hPresenting
    exact absurd hPresenting hStatus

/- A stitch may be entered. -/
theorem IsCoherent.enter
    (hCoherent : p.IsCoherent o)
    (hNodup : o.ids.Nodup)
    {stitch : Stitch}
    (hStitch : o.stitch? p.location = some stitch) :
    { p with
      frames := [⟨stitch.body.id, 0⟩]
      status := .ready
      offers := [] }.IsCoherent o := by
  apply isCoherent_of_ready hCoherent.location
  · intro id hLast
    cases hLast
    exact ⟨stitch, hStitch, rfl⟩
  · intro f hMem
    rcases List.mem_singleton.mp hMem with rfl
    refine ⟨stitch.body.items, ?_, Int.le_refl 0,
      Int.natCast_nonneg _⟩
    exact Outline.block?_body hNodup
      (Outline.body_mem_bodies hStitch)
  · exact List.IsChain.singleton _

/- Every move from a coherent position leads to one. -/
theorem Moves.isCoherent
    {es : List Event}
    {p' : Position}
    (hMoves : Moves o p es p')
    (hNodup : o.ids.Nodup)
    (hReady : p.status = .ready)
    (hCoherent : p.IsCoherent o) :
    p'.IsCoherent o := by
  have hNone : p.offers = [] := by
    by_contra hSome
    have hPresenting := hCoherent.presenting.mpr hSome
    rw [hReady] at hPresenting
    cases hPresenting
  rcases p with ⟨location, status, frames, offers⟩
  simp only at hReady hNone
  subst hReady hNone
  cases hMoves with
  | enter stitch hFrames hStitch =>
      exact hCoherent.enter hNodup hStitch
  | leave f g fs items hFrames hBlock hEnd =>
      exact hCoherent.leave hFrames
  | finish f items hFrames hBlock hEnd =>
      exact isCoherent_of_frames_nil hCoherent.location
        (by simp)
  | pass f fs i hAt hItem => exact hCoherent.past hAt
  | divert f fs i a hAt hItem hAddress =>
      exact isCoherent_of_frames_nil hAddress (by simp)
  | conclude f fs i hAt hItem =>
      exact isCoherent_of_frames_nil hCoherent.location
        (by simp)
  | present f fs id depth line branches offers hAt hOffers
      hOffered =>
      exact hCoherent.present hNodup hAt hOffers hOffered
  | take f fs id depth line branches b hAt hBranch =>
      exact hCoherent.take hNodup hAt
        (List.mem_map_of_mem hBranch)
  | stick f fs id depth line branches hAt =>
      exact hCoherent

end Position

end BranchingStory
