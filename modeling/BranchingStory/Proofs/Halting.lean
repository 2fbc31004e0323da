import BranchingStory.Proofs.Arrivals
import BranchingStory.Proofs.Faults
import BranchingStory.Proofs.VisitCounts
import Mathlib.Data.Prod.Lex

/-
  This file shows that a story that follows no divert comes to
  a halt.  The parts that are ahead of a story are counted: what
  its frames have still to come to, or the whole stitch before
  it is entered.  Each step that stays in the stitch leaves fewer
  parts ahead, or as many and fewer frames; to take a fallback
  opens a frame, but the branch is only a part of the set of
  choices that is left behind.

  Key definitions include:
    * `framesAhead`
    * `Position.ahead`
    * `Position.rank`
    * `Position.Nears`

  Key theorems include:
    * `framesAhead_le_block`
    * `step_nears`
    * `State.Walks.lines_le`
    * `steps_le_of_cut`
    * `stories_halt_without_diverts`
-/

------------------------------------------------------------
-- Parts That Are Ahead
------------------------------------------------------------

namespace BranchingStory

open scoped List

/- The number of parts that frames have still to come to. -/
def framesAhead
    (o : Outline) : List Frame → Nat
  | [] => 0
  | f :: fs =>
      (itemIds (f.remaining o)).length + framesAhead o fs

namespace Position

/-
  The number of parts that are ahead of a story in its stitch.
  All of the stitch is ahead before it is entered.
-/
def ahead
    (o : Outline)
    (p : Position) : Nat :=
  match p.frames with
  | [] =>
      ((o.stitch? p.location).map fun stitch =>
        stitch.body.ids.length).getD 0
  | f :: fs => framesAhead o (f :: fs)

/-
  How far a story is from leaving its stitch: the parts that
  are ahead count first, and the frames next.
-/
def rank
    (o : Outline)
    (p : Position) : Nat ×ₗ Nat :=
  toLex (p.ahead o, p.frames.length)

/- How many steps a story can make at most in its stitch. -/
def reach
    (o : Outline)
    (p : Position) : Nat :=
  2 * p.ahead o + p.frames.length

end Position

/- The numbers of what is left of a content are among its. -/
theorem itemIds_drop_sublist
    (n : Nat)
    (items : List Item) :
    itemIds (items.drop n) <+ itemIds items := by
  induction n generalizing items with
  | zero => exact List.Sublist.refl _
  | succ n ih =>
      cases items with
      | nil => exact List.Sublist.refl _
      | cons i is =>
          rw [List.drop_succ_cons, itemIds_cons]
          exact (ih is).trans (List.sublist_append_right _ _)

/- A part that is no set of choices has one number. -/
theorem Item.length_ids
    {i : Item}
    (hItem : i.isChoices = false) :
    i.ids.length = 1 := by
  cases i with
  | line id content => simp
  | gather id depth content => simp
  | assign id name value line => simp
  | choices id depth line branches => cases hItem

/- Every part of the content has a number. -/
theorem Item.length_ids_pos
    (i : Item) :
    0 < i.ids.length := by
  cases i <;> simp

/- The numbers of a branch are those of its body and its own. -/
theorem Branch.length_ids
    (b : Branch) :
    b.ids.length = (itemIds b.body).length + 1 := by
  rcases b with ⟨id, outputId, depth, choice, items⟩
  simp [Branch.body, Branch.outputId, Branch.items]

/- The numbers of a branch are among those of its set. -/
theorem length_ids_le_branchIds
    {bs : List Branch}
    {b : Branch}
    (hMem : b ∈ bs) :
    b.ids.length ≤ (branchIds bs).length := by
  induction bs with
  | nil => cases hMem
  | cons c cs ih =>
      rw [branchIds_cons, List.length_append]
      rcases List.mem_cons.mp hMem with rfl | hRest
      · exact Nat.le_add_right _ _
      · exact (ih hRest).trans (Nat.le_add_left _ _)

/-
  A set of choices has two parts more than the body of any of
  its branches: itself and the branch.
-/
theorem length_body_le_choices
    (id depth line : Nat)
    {branches : List Branch}
    {b : Branch}
    (hMem : b ∈ branches) :
    (itemIds b.body).length + 2 ≤
      (Item.choices id depth line branches).ids.length := by
  have hBranch := length_ids_le_branchIds hMem
  rw [b.length_ids] at hBranch
  rw [Item.ids_choices, List.length_cons]
  omega

/- The numbers of a content are among those of the outline. -/
theorem Outline.length_body_le
    {o : Outline}
    {body : Body}
    (hBody : body ∈ o.bodies) :
    body.ids.length ≤ o.ids.length := by
  rw [ids_eq]
  exact (List.sublist_flatten_of_mem
    (List.mem_map_of_mem hBody)).length_le

end BranchingStory

------------------------------------------------------------
-- How Moves Come Nearer
------------------------------------------------------------

namespace BranchingStory

variable {o : Outline}
variable {p p' : Position}
variable {f : Frame}
variable {fs : List Frame}

/-
  Whether a story that stays in its stitch, and yields so many
  lines, comes nearer to leaving it: as many parts less are
  ahead at least, and fewer parts or else fewer frames.
-/
structure Position.Nears
    (o : Outline)
    (p : Position)
    (lines : Nat)
    (p' : Position) : Prop where
  location : p'.location = p.location
  lines_le : lines + p'.ahead o ≤ p.ahead o
  fewer :
    p'.ahead o < p.ahead o ∧
        p'.frames.length ≤ p.frames.length + 1 ∨
      p'.ahead o = p.ahead o ∧
        p'.frames.length < p.frames.length

namespace Position.Nears

variable {lines : Nat}

/- What comes nearer has a lower rank. -/
theorem rank_lt
    (hNears : p.Nears o lines p') :
    p'.rank o < p.rank o := by
  rw [rank, rank, Prod.Lex.toLex_lt_toLex]
  exact hNears.fewer.imp_left And.left

/- What comes nearer has a shorter way to go. -/
theorem reach_lt
    (hNears : p.Nears o lines p') :
    p'.reach o < p.reach o := by
  rw [reach, reach]
  rcases hNears.fewer with ⟨hAhead, hFrames⟩ | ⟨hAhead, hFrames⟩
  · omega
  · omega

end Position.Nears

/- The frames tell what is ahead of a story in its stitch. -/
theorem Position.ahead_of_frames
    (hFrames : p.frames = f :: fs) :
    p.ahead o = framesAhead o (f :: fs) := by
  rw [ahead, hFrames]

/- Before a stitch is entered, all of it is ahead. -/
theorem Position.ahead_of_outside
    (hFrames : p.frames = [])
    {stitch : Stitch}
    (hStitch : o.stitch? p.location = some stitch) :
    p.ahead o = stitch.body.ids.length := by
  rw [ahead, hFrames]
  simp [hStitch]

namespace Position.IsCoherent

/- What a story stands at is ahead of it. -/
theorem ahead_pos
    (hCoherent : p.IsCoherent o)
    {i : Item}
    (hAt : p.IsAt o f fs i) :
    0 < p.ahead o := by
  rw [ahead_of_frames hAt.1, framesAhead,
    hCoherent.remaining_eq hAt, itemIds_cons,
    List.length_append]
  have hItem := i.length_ids_pos
  omega

/- A part that is come past is no longer ahead. -/
theorem framesAhead_past
    (hCoherent : p.IsCoherent o)
    {i : Item}
    (hAt : p.IsAt o f fs i)
    (hItem : i.isChoices = false) :
    framesAhead o (f :: fs) =
      framesAhead o (f.past :: fs) + 1 := by
  rw [framesAhead, framesAhead, hCoherent.remaining_eq hAt,
    itemIds_cons, List.length_append, Item.length_ids hItem]
  omega

/-
  In a branch that is taken, fewer parts are ahead than were at
  its set of choices.
-/
theorem framesAhead_take
    (hCoherent : p.IsCoherent o)
    (hNodup : o.ids.Nodup)
    {id depth line : Nat}
    {branches : List Branch}
    (hAt : p.IsAt o f fs (.choices id depth line branches))
    {b : Branch}
    (hBranch : b ∈ branches) :
    framesAhead o (framesInto b.id f fs) + 2 ≤
      framesAhead o (f :: fs) := by
  have hBody :
      Frame.remaining o ⟨b.id, 0⟩ = b.body := by
    rw [Frame.remaining, Outline.block?_branch hNodup
      (hCoherent.branches_subset hAt hBranch)]
    rfl
  have hFewer := length_body_le_choices id depth line hBranch
  rw [framesInto, framesAhead, framesAhead, framesAhead, hBody,
    hCoherent.remaining_eq hAt, itemIds_cons,
    List.length_append]
  omega

end Position.IsCoherent

/- A block at its end has nothing ahead. -/
theorem framesAhead_leave
    {items : List Item}
    (hBlock : o.block? f.block = some items)
    (hEnd : items.length ≤ f.index)
    (fs : List Frame) :
    framesAhead o (f :: fs) = framesAhead o fs := by
  have hNothing : f.remaining o = [] := by
    rw [Frame.remaining, hBlock, Option.getD_some]
    exact List.drop_eq_nil_of_le (by omega)
  rw [framesAhead, hNothing, itemIds_nil, List.length_nil,
    Nat.zero_add]

namespace Position.Nears

variable {lines : Nat}
variable {g : Frame}
variable {gs : List Frame}

/- What comes nearer inside a stitch is told by the frames. -/
theorem of_frames
    (hFrames : p.frames = f :: fs)
    (hFrames' : p'.frames = g :: gs)
    (hLocation : p'.location = p.location)
    (hLines : lines + framesAhead o (g :: gs) ≤
      framesAhead o (f :: fs))
    (hFewer :
      framesAhead o (g :: gs) < framesAhead o (f :: fs) ∧
          gs.length ≤ fs.length + 1 ∨
        framesAhead o (g :: gs) = framesAhead o (f :: fs) ∧
          gs.length < fs.length) :
    p.Nears o lines p' := by
  rw [← ahead_of_frames hFrames,
    ← ahead_of_frames hFrames'] at hLines hFewer
  refine ⟨hLocation, hLines, hFewer.imp ?_ ?_⟩
  · rintro ⟨hAhead, hLength⟩
    rw [hFrames, hFrames']
    exact ⟨hAhead, Nat.succ_le_succ hLength⟩
  · rintro ⟨hAhead, hLength⟩
    rw [hFrames, hFrames']
    exact ⟨hAhead, Nat.succ_lt_succ hLength⟩

/- To enter a stitch leaves its own number behind. -/
theorem enter
    (hNodup : o.ids.Nodup)
    (hFrames : p.frames = [])
    {stitch : Stitch}
    (hStitch : o.stitch? p.location = some stitch)
    (hFrames' : p'.frames = [⟨stitch.body.id, 0⟩])
    (hLocation : p'.location = p.location)
    (hLines : lines ≤ 1) :
    p.Nears o lines p' := by
  have hAhead := ahead_of_outside hFrames hStitch
  have hAhead' :
      p'.ahead o = (itemIds stitch.body.items).length := by
    rw [ahead_of_frames hFrames', framesAhead, framesAhead,
      Frame.remaining, Outline.block?_body hNodup
        (Outline.body_mem_bodies hStitch)]
    rfl
  rw [Body.ids_eq, List.length_cons] at hAhead
  refine ⟨hLocation, by omega, Or.inl ⟨by omega, ?_⟩⟩
  rw [hFrames, hFrames']
  exact Nat.le_refl 1

end Position.Nears

/-
  Frames that lead into each other have less ahead than the
  outermost block has parts.  Each block inside another is
  paid for by the set of choices that was come past there.
-/
theorem framesAhead_le_block
    (hNodup : o.ids.Nodup)
    (hPlaces : ∀ g ∈ f :: fs, ∃ items,
      o.block? g.block = some items ∧
        0 ≤ g.index ∧ g.index ≤ items.length)
    (hNested : (f :: fs).IsChain (Frame.IsWithin o))
    {id : Nat}
    (hLast :
      ((f :: fs).map Frame.block).getLast? = some id)
    {items : List Item}
    (hBlock : o.block? id = some items) :
    2 * framesAhead o (f :: fs) + (f :: fs).length ≤
      2 * (itemIds items).length + 1 := by
  induction fs generalizing f with
  | nil =>
      cases hLast
      have hBlock' : o.block? f.block = some items := hBlock
      have hLeft :=
        (itemIds_drop_sublist f.index.toNat items).length_le
      rw [framesAhead, framesAhead, Frame.remaining, hBlock',
        Option.getD_some, List.length_singleton]
      omega
  | cons g fs ih =>
      rw [List.isChain_cons_cons] at hNested
      rcases hNested with ⟨hWithin, hOuter⟩
      rcases hWithin with
        ⟨outer, setId, depth, line, branches, hOuterBlock,
          hCome, hItem, hAmong⟩
      rcases List.mem_map.mp hAmong with ⟨b, hBranch, hId⟩
      have hInner :
          (itemIds (f.remaining o)).length ≤
            (itemIds b.body).length := by
        have hBlockInner := Outline.block?_branch hNodup
          (Outline.branches_block_subset hOuterBlock
            (List.mem_of_getElem? hItem) hBranch)
        rw [hId] at hBlockInner
        rw [Frame.remaining, hBlockInner, Option.getD_some]
        exact (itemIds_drop_sublist _ _).length_le
      -- The outer frame as it was before its set of choices.
      let before : Frame := ⟨g.block, g.index - 1⟩
      have hBefore :
          before.remaining o =
            .choices setId depth line branches ::
              g.remaining o := by
        rcases List.getElem?_eq_some_iff.mp hItem with
          ⟨hIndex, hSame⟩
        have hNext : (g.index - 1).toNat + 1 = g.index.toNat := by
          omega
        rw [Frame.remaining, Frame.remaining, hOuterBlock,
          Option.getD_some, List.drop_eq_getElem_cons hIndex,
          hSame, hNext]
      have hFewer :=
        length_body_le_choices setId depth line hBranch
      have hSame : before.block = g.block := rfl
      have hAhead := @ih before ?_
        (isChain_replace_head hSame hOuter) ?_
      · rw [framesAhead, framesAhead]
        rw [framesAhead, hBefore, itemIds_cons,
          List.length_append] at hAhead
        simp only [List.length_cons] at hAhead ⊢
        omega
      · intro g' hMem
        rcases List.mem_cons.mp hMem with rfl | hRest
        · rcases hPlaces g (by simp) with
            ⟨items', hBlock', hNatural, hBound⟩
          refine ⟨items', hBlock', ?_, ?_⟩
          · change 0 ≤ g.index - 1
            omega
          · change g.index - 1 ≤ items'.length
            omega
        · exact hPlaces g' (by simp [hRest])
      · rw [List.map_cons, List.map_cons,
          List.getLast?_cons_cons] at hLast
        exact hLast

/-
  At most the parts of its stitch are ahead of a story, and it
  can make at most two steps for each of them.
-/
theorem Position.IsCoherent.reach_le
    (hCoherent : p.IsCoherent o)
    (hNodup : o.ids.Nodup) :
    ∃ stitch, o.stitch? p.location = some stitch ∧
      p.reach o ≤ 2 * stitch.body.ids.length := by
  cases hFrames : p.frames with
  | nil =>
      rcases Option.isSome_iff_exists.mp hCoherent.location with
        ⟨stitch, hStitch⟩
      refine ⟨stitch, hStitch, ?_⟩
      rw [reach, ahead_of_outside hFrames hStitch, hFrames]
      exact Nat.le_refl _
  | cons f fs =>
      have hSome :
          ((f :: fs).map Frame.block).getLast? ≠ none := by
        simp
      rcases Option.ne_none_iff_exists'.mp hSome with
        ⟨id, hLast⟩
      rcases hCoherent.root id (hFrames ▸ hLast) with
        ⟨stitch, hStitch, rfl⟩
      refine ⟨stitch, hStitch, ?_⟩
      have hAhead := framesAhead_le_block hNodup
        (hFrames ▸ hCoherent.places)
        (hFrames ▸ hCoherent.nested) hLast
        (Outline.block?_body hNodup
          (Outline.body_mem_bodies hStitch))
      rw [reach, ahead_of_frames hFrames, hFrames,
        Body.ids_eq, List.length_cons (a := stitch.body.id)]
      omega

end BranchingStory

------------------------------------------------------------
-- How Steps Come Nearer
------------------------------------------------------------

namespace BranchingStory

open Play

variable {o : Outline}
variable {s s' : State}
variable {f : Frame}
variable {fs : List Frame}

/-
  A step arrives at a place where it follows a divert, which
  leads out of all frames, and nowhere else.
-/
theorem State.Changes.arrivals_cases
    {new : List Happening}
    (hChanges : s.Changes o new s') :
    arrivals none new = [] ∧
        (s'.frames ≠ [] ∨ s'.status ≠ .ready) ∨
      s.frames ≠ [] ∧ s'.frames = [] ∧
        ∃ a, arrivals none new = [a] := by
  have hInside {f : Frame} {fs : List Frame}
      (hFrames : s.frames = f :: fs) : s.frames ≠ [] := by
    rw [hFrames]
    exact List.cons_ne_nil f fs
  cases hChanges with
  | enter stitch hFrames =>
      exact Or.inl ⟨rfl, Or.inl (List.cons_ne_nil _ _)⟩
  | leave f g fs hFrames =>
      exact Or.inl ⟨rfl, Or.inl (List.cons_ne_nil g fs)⟩
  | finish f hFrames => exact Or.inl ⟨rfl, Or.inr (by simp)⟩
  | pass f fs shown s' hFrames hShows =>
      exact Or.inl ⟨arrivals_showed none shown,
        Or.inl (hShows.frames_ne rfl)⟩
  | divert f fs shown s' a hFrames hShows =>
      refine Or.inr ⟨hInside hFrames, rfl, a, ?_⟩
      rw [arrivals_append, arrivals_showed]
      rfl
  | conclude f fs shown s' hFrames hShows =>
      exact Or.inl ⟨arrivals_showed none shown,
        Or.inr (by simp)⟩
  | assign f fs id name value v hFrames hLeaf =>
      exact Or.inl ⟨rfl, Or.inl (List.cons_ne_nil f.past fs)⟩
  | present f fs shown s' offers hFrames hShows hFresh =>
      exact Or.inl ⟨arrivals_showed none shown,
        Or.inl (hShows.frames_ne hFrames)⟩
  | take f fs shown s' b hFrames hShows hBranch hFresh =>
      refine Or.inl ⟨?_, Or.inl (List.cons_ne_nil _ _)⟩
      rw [arrivals_append, arrivals_showed]
      rfl
  | stick f fs shown s' hFrames hShows =>
      exact Or.inl ⟨arrivals_showed none shown,
        Or.inl (hShows.frames_ne hFrames)⟩

/- A block that is left at its end yields no line. -/
theorem step_line_of_end
    {items : List Item}
    (hFrames : s.frames = f :: fs)
    (hBlock : o.block? f.block = some items)
    (hEnd : items.length ≤ f.index)
    {r : Progress}
    (hStep : (step o).runFrom s = (.ok r, s')) :
    r.line = none := by
  have hLeave :
      (step o).runFrom s = (leave fs).runFrom s := by
    unfold step
    rw [runFrom_bind, runFrom_get]
    simp only [hFrames, hBlock]
    rw [if_pos hEnd]
  rw [hLeave] at hStep
  cases fs with
  | nil =>
      cases hStep
      rfl
  | cons g fs =>
      cases hStep
      rfl

/-
  A story that goes on from a set of choices without a prompt
  has taken one of the branches.
-/
theorem arriveAt_takes
    {line : Nat}
    {branches : List Branch}
    (hPlayable : ∀ b ∈ branches, b.IsPlayable o)
    (hFrames : s.frames = f :: fs) :
    Ends (arriveAt line branches) s
      (fun r s' => r.prompt = none →
        ∃ b ∈ branches,
          s'.frames = Position.framesInto b.id f fs)
      (fun _ _ => True) := by
  unfold arriveAt
  rw [ends_bind]
  refine (offersOf_shows hPlayable s).mono ?_
    fun _ _ _ => trivial
  rintro offers s₁ ⟨hShows, _⟩
  cases offers with
  | cons offer offers =>
      intro hSilent
      cases hSilent
  | nil =>
      simp only [ends_bind]
      refine (findFallback?_finds branches s₁).mono ?_
        fun _ _ _ => trivial
      rintro b? s₂ ⟨rfl, hFound⟩
      cases b? with
      | none => trivial
      | some b =>
          have hTakes := runFrom_takeBranch b.id
            (hShows.frames_eq.trans hFrames)
          simp only
          rw [ends_bind_ok hTakes]
          intro _
          exact ⟨b, (hFound b rfl).1, rfl⟩

/- The same of a step that is made at a set of choices. -/
theorem step_takes
    (hCoherent : s.position.IsCoherent o)
    {id depth line : Nat}
    {branches : List Branch}
    (hAt : s.position.IsAt o f fs
      (.choices id depth line branches))
    {r : Progress}
    (hStep : (step o).runFrom s = (.ok r, s'))
    (hSilent : r.prompt = none) :
    ∃ b ∈ branches,
      s'.frames = Position.framesInto b.id f fs := by
  rw [step_eq_arriveAt hCoherent hAt] at hStep
  have hTakes : Ends (arriveAt line branches) s _ _ :=
    arriveAt_takes
      (fun b hBranch => hCoherent.isPlayable hAt hBranch)
      hAt.1
  exact hTakes.of_ok hStep hSilent

/-
  A step yields a line only with parts ahead.  If it yields no
  prompt and follows no divert, it comes nearer to leaving the
  stitch.
-/
theorem step_nears
    (hSound : o.IsSound)
    (hFits : s.Fits o)
    (hReady : s.status = .ready)
    {r : Progress}
    (hStep : (step o).runFrom s = (.ok r, s')) :
    r.line.toList.length ≤ s.position.ahead o ∧
      (r.prompt = none →
        arrivals none (stepHistory o s) = [] →
        s.position.Nears o r.line.toList.length
          s'.position) := by
  have hCoherent := hFits.coherent
  have hLine : r.line.toList.length ≤ 1 := by
    cases r.line <;> simp
  have hAhead {f : Frame} {fs : List Frame} {i : Item}
      (hAt : s.position.IsAt o f fs i) :
      r.line.toList.length ≤ s.position.ahead o :=
    hLine.trans (hCoherent.ahead_pos hAt)
  rcases (step_ends hSound hFits.sound hCoherent hReady).of_ok
    hStep with ⟨⟨_, es, hMoves⟩, hPrompt⟩
  have hReady' (hSilent : r.prompt = none) :
      s'.position.status = .ready :=
    State.ready_of_prompt? (hPrompt.symm.trans hSilent)
  have hTakes {f : Frame} {fs : List Frame}
      {id depth line : Nat} {branches : List Branch}
      (hAt : s.position.IsAt o f fs
        (.choices id depth line branches)) :=
    step_takes hCoherent hAt hStep
  -- A story that goes on without a divert is still inside.
  have hInside
      (hSilent : r.prompt = none)
      (hNowhere : arrivals none (stepHistory o s) = []) :
      s'.position.frames ≠ [] := by
    rcases ((step_changes hCoherent).of_ok hStep).arrivals_cases
      with ⟨_, hFrames | hStatus⟩ | ⟨_, _, a, hSome⟩
    · exact hFrames
    · exact absurd (hReady' hSilent) hStatus
    · rw [hNowhere] at hSome
      cases hSome
  change ∀ {f : Frame} {fs : List Frame}
    {id depth line : Nat} {branches : List Branch},
    s.position.IsAt o f fs (.choices id depth line branches) →
      r.prompt = none → ∃ b ∈ branches,
        s'.position.frames = Position.framesInto b.id f fs
    at hTakes
  generalize s'.position = p' at hMoves hReady' hInside hTakes ⊢
  cases hMoves with
  | enter stitch hFrames hStitch =>
      have hNears :
          s.position.Nears o r.line.toList.length
            { s.position with
              frames := [⟨stitch.body.id, 0⟩] } :=
        Position.Nears.enter hSound.nodup hFrames hStitch rfl
          rfl hLine
      exact ⟨(Nat.le_add_right _ _).trans hNears.lines_le,
        fun _ _ => hNears⟩
  | leave f g fs items hFrames hBlock hEnd =>
      have hNone := step_line_of_end hFrames hBlock hEnd hStep
      have hSame := framesAhead_leave hBlock hEnd (g :: fs)
      rw [hNone, Option.toList_none, List.length_nil]
      refine ⟨Nat.zero_le _, fun _ _ =>
        Position.Nears.of_frames hFrames rfl rfl ?_
          (Or.inr ⟨hSame.symm, Nat.lt_succ_self _⟩)⟩
      rw [hSame, Nat.zero_add]
  | finish f items hFrames hBlock hEnd =>
      have hNone := step_line_of_end hFrames hBlock hEnd hStep
      rw [hNone, Option.toList_none, List.length_nil]
      exact ⟨Nat.zero_le _, fun hSilent hNowhere =>
        absurd rfl (hInside hSilent hNowhere)⟩
  | pass f fs i hAt hItem =>
      have hPast := hCoherent.framesAhead_past hAt hItem
      refine ⟨hAhead hAt, fun _ _ =>
        Position.Nears.of_frames hAt.1 rfl rfl (by omega)
          (Or.inl ⟨by omega, Nat.le_succ _⟩)⟩
  | divert f fs i a hAt hItem hAddress =>
      exact ⟨hAhead hAt, fun hSilent hNowhere =>
        absurd rfl (hInside hSilent hNowhere)⟩
  | conclude f fs i hAt hItem =>
      exact ⟨hAhead hAt, fun hSilent hNowhere =>
        absurd rfl (hInside hSilent hNowhere)⟩
  | present f fs id depth line branches offers hAt hOffers
      hOffered =>
      refine ⟨hAhead hAt, fun hSilent _ => ?_⟩
      cases hReady' hSilent
  | take f fs id depth line branches b hAt hBranch =>
      have hInto :=
        hCoherent.framesAhead_take hSound.nodup hAt hBranch
      rw [Position.framesInto] at hInto
      refine ⟨hAhead hAt, fun _ _ =>
        Position.Nears.of_frames hAt.1 rfl rfl (by omega)
          (Or.inl ⟨by omega, Nat.le_refl _⟩)⟩
  | stick f fs id depth line branches hAt =>
      refine ⟨hAhead hAt, fun hSilent _ => ?_⟩
      rcases hTakes hAt hSilent with ⟨b, _, hFrames⟩
      rw [hAt.1, Position.framesInto] at hFrames
      have hLength := congrArg List.length hFrames
      simp at hLength

end BranchingStory

------------------------------------------------------------
-- Walks Between Diverts
------------------------------------------------------------

namespace BranchingStory

open Play

variable {o : Outline}
variable {s s' : State}
variable {n : Nat}

/- All that happens in a step that fits belongs to it. -/
theorem isInner_stepHistory
    (hSound : o.IsSound)
    (hFits : s.Fits o)
    (hReady : s.status = .ready) :
    ∀ x ∈ stepHistory o s, x.isInner = true := by
  have hEnds := step_unfolds hSound hFits hReady
  unfold Ends at hEnds
  generalize (step o).runFrom s = p at hEnds
  rcases p with ⟨e | r, s'⟩
  · exact hEnds.1.isInner
  · exact hEnds.1.isInner

/- Where a step leads comes ahead of where the next ones do. -/
theorem arrivals_stepHistory_append
    (hSound : o.IsSound)
    (hFits : s.Fits o)
    (hReady : s.status = .ready)
    (h : List Happening) :
    arrivals none (stepHistory o s ++ h) =
      arrivals none (stepHistory o s) ++ arrivals none h := by
  rw [arrivals_append,
    waiting_inner (isInner_stepHistory hSound hFits hReady)]

/- What happens in a step and after it, without a prompt. -/
theorem followHistory_step
    {r : Progress}
    (hStep : (step o).runFrom s = (.ok r, s'))
    (hSilent : r.prompt = none) :
    followHistory o (n + 1) s =
      stepHistory o s ++ followHistory o n s' := by
  simp only [followHistory, hStep, hSilent,
    Option.isSome_none, Bool.false_eq_true, if_false]

/-
  A walk without a divert stays in its stitch, and as many
  lines as it yields are no longer ahead.
-/
theorem State.Walks.lines_le
    (hSound : o.IsSound)
    {ls : List RenderedLine}
    (hWalks : s.Walks o n ls s')
    (hFits : s.Fits o)
    (hNowhere : arrivals none (followHistory o n s) = []) :
    ls.length + s'.position.ahead o ≤ s.position.ahead o := by
  induction hWalks with
  | stay hReady => simp
  | step hReady hStep hSilent hThen ih =>
      rw [followHistory_step hStep hSilent,
        arrivals_stepHistory_append hSound hFits hReady,
        List.append_eq_nil_iff] at hNowhere
      have hFits' :=
        (Walks.step hReady hStep hSilent
          (.stay hThen.ready_start)).fits hSound hFits
      have hLater := ih hFits' hNowhere.2
      have hNears :=
        (step_nears hSound hFits hReady hStep).2 hSilent
          hNowhere.1
      have hLines := hNears.lines_le
      rw [List.length_append]
      omega

end BranchingStory

------------------------------------------------------------
-- Coming To A Halt
------------------------------------------------------------

namespace BranchingStory

open Play

variable {o : Outline}
variable {s s' : State}

/- A story can make two steps for each of its parts at most. -/
theorem Position.IsCoherent.reach_le_ids
    {p : Position}
    (hCoherent : p.IsCoherent o)
    (hNodup : o.ids.Nodup) :
    p.reach o ≤ 2 * o.ids.length := by
  rcases hCoherent.reach_le hNodup with
    ⟨stitch, hStitch, hReach⟩
  have hBody := Outline.length_body_le
    (Outline.body_mem_bodies hStitch)
  omega

/-
  A story that is cut short has made no more steps than reach
  to the end of its stitch, and two for each part of the story
  after each divert.
-/
theorem steps_le_of_cut
    (hSound : o.IsSound)
    {n : Nat}
    (hFits : s.Fits o)
    (hReady : s.status = .ready)
    (hCut : .cut ∈ followHistory o n s) :
    n ≤ s.position.reach o +
      (arrivals none (followHistory o n s)).length *
        (2 * o.ids.length) := by
  induction n generalizing s with
  | zero => exact Nat.zero_le _
  | succ n ih =>
      have hNever : .cut ∉ stepHistory o s := fun hMem =>
        Bool.false_ne_true
          (isInner_stepHistory hSound hFits hReady _ hMem)
      rcases hStep : (step o).runFrom s with ⟨e | r, s'⟩
      · simp only [followHistory, hStep, List.append_nil]
          at hCut
        exact absurd hCut hNever
      · rcases (step_unfolds hSound hFits hReady).of_ok hStep
          with ⟨hChanges, hFits', hPrompt⟩
        cases hSilent : r.prompt with
        | some prompt =>
            simp only [followHistory, hStep, hSilent,
              Option.isSome_some, if_true, List.append_nil]
              at hCut
            exact absurd hCut hNever
        | none =>
            rw [hSilent] at hPrompt
            have hReady' :=
              State.ready_of_prompt? hPrompt.symm
            rw [followHistory_step hStep hSilent] at hCut ⊢
            have hLater := ih hFits' hReady'
              ((List.mem_append.mp hCut).resolve_left hNever)
            rw [arrivals_stepHistory_append hSound hFits hReady,
              List.length_append, Nat.add_mul]
            rcases hChanges.arrivals_cases with
              ⟨hNowhere, _⟩ | ⟨hInside, _, a, hArrives⟩
            · have hNears :=
                (step_nears hSound hFits hReady hStep).2
                  hSilent hNowhere
              have hReach := hNears.reach_lt
              omega
            · -- The divert gives all steps of a stitch anew.
              have hReach :=
                hFits'.coherent.reach_le_ids hSound.nodup
              have hFrames : 0 < s.position.reach o :=
                (List.length_pos_iff.mpr hInside).trans_le
                  (Nat.le_add_left _ _)
              rw [hArrives, List.length_singleton, Nat.one_mul]
              omega

/- Nothing but the bound on the steps exhausts them. -/
theorem laws_of_steps
    (o : Outline) :
    Laws o (fun _ => True) fun e _ => e ≠ .stepsExhausted where
  evaluates := fun _ _ _ _ _ _ _ _ => nofun
  writes := fun _ _ _ _ _ _ _ _ => nofun
  assigns := fun _ _ _ _ _ =>
    assign_obeys (fun _ _ _ => nofun) (fun _ => nofun)
      (fun _ _ _ => nofun)
  diverts := fun _ _ _ _ =>
    divertPlace?_obeys (fun _ _ => nofun) (fun _ => nofun)
  visits := fun _ _ _ => trivial
  places := by
    rintro e m hPlace _ rfl
    cases hPlace

/- A story runs out of steps only where it is cut short. -/
theorem cut_of_follow
    {n : Nat}
    (hRun :
      ((follow o n).runFrom s).1 = .error .stepsExhausted) :
    .cut ∈ followHistory o n s := by
  induction n generalizing s with
  | zero => exact List.mem_cons_self
  | succ n ih =>
      have hEnds := (laws_of_steps o).step_obeys s trivial
      rw [follow, runFrom_bind] at hRun
      rcases hStep : (step o).runFrom s with ⟨e | r, s'⟩
      · rw [hStep] at hRun
        exact absurd (Except.error.inj hRun)
          (hEnds.of_error hStep).2
      · cases hSilent : r.prompt with
        | some prompt =>
            simp only [hStep, hSilent] at hRun
            cases hRun
        | none =>
            rw [followHistory_step hStep hSilent]
            apply List.mem_append_right
            apply ih
            simp only [hStep, hSilent, runFrom_bind] at hRun
            rcases hLater : (follow o n).runFrom s' with
              ⟨e | r', s''⟩
            · rw [hLater] at hRun
              exact hRun
            · rw [hLater] at hRun
              cases hRun

/- The same of a story that is asked to go on. -/
theorem cut_of_resume
    {steps : Nat}
    (hRun :
      ((resume o steps).runFrom s).1 =
        .error .stepsExhausted) :
    .cut ∈ resumeHistory o steps s := by
  cases hStatus : s.status with
  | ready =>
      rw [resumeHistory, if_pos hStatus]
      apply List.mem_cons_of_mem
      apply cut_of_follow
      rw [resume_eq_follow hStatus] at hRun
      rcases hFollow : (follow o steps).runFrom s with
        ⟨e | r, s'⟩
      · rw [hFollow] at hRun
        cases hRun
        rfl
      · rw [hFollow] at hRun
        cases hRun
  | presenting =>
      unfold resume at hRun
      rw [runFrom_bind, runFrom_get] at hRun
      simp only [hStatus] at hRun
      cases hRun
  | finished =>
      unfold resume at hRun
      rw [runFrom_bind, runFrom_get] at hRun
      simp only [hStatus] at hRun
      cases hRun

/- A story that is not cut short needs no further steps. -/
theorem follow_of_not_cut
    {n : Nat}
    (hUncut : .cut ∉ followHistory o n s)
    (more : Nat) :
    (follow o (n + more)).runFrom s =
      (follow o n).runFrom s := by
  induction n generalizing s with
  | zero => exact absurd List.mem_cons_self hUncut
  | succ n ih =>
      rw [Nat.add_right_comm, follow, follow, runFrom_bind,
        runFrom_bind]
      rcases hStep : (step o).runFrom s with ⟨e | r, s'⟩
      · rfl
      · cases hSilent : r.prompt with
        | some prompt => simp only [hSilent]
        | none =>
            rw [followHistory_step hStep hSilent,
              List.mem_append, not_or] at hUncut
            simp only [hSilent]
            rw [runFrom_bind, runFrom_bind, ih hUncut.2]

/- The same of a story that is asked to go on. -/
theorem resume_of_not_cut
    {steps : Nat}
    (hUncut : .cut ∉ resumeHistory o steps s)
    (more : Nat) :
    (resume o (steps + more)).runFrom s =
      (resume o steps).runFrom s := by
  cases hStatus : s.status with
  | ready =>
      rw [resumeHistory, if_pos hStatus, List.mem_cons,
        not_or] at hUncut
      rw [resume_eq_follow hStatus, resume_eq_follow hStatus,
        follow_of_not_cut hUncut.2]
  | presenting =>
      unfold resume
      rw [runFrom_bind, runFrom_get, runFrom_bind, runFrom_get]
      simp only [hStatus]
  | finished =>
      unfold resume
      rw [runFrom_bind, runFrom_get, runFrom_bind, runFrom_get]
      simp only [hStatus]

/-
  A story that is asked to go on is not cut short if it may
  make two steps for each of its parts, and as many again for
  each divert that it follows.
-/
theorem not_cut_of_steps
    (hSound : o.IsSound)
    (hFits : s.Fits o)
    {steps diverts : Nat}
    (hSteps : (diverts + 1) * (2 * o.ids.length) < steps)
    (hDiverts :
      (arrivals none (resumeHistory o steps s)).length ≤
        diverts) :
    .cut ∉ resumeHistory o steps s := by
  intro hCut
  unfold resumeHistory at hCut hDiverts
  split at hCut
  · next hReady =>
      rw [if_pos hReady] at hDiverts
      have hLater : .cut ∈ followHistory o steps s :=
        (List.mem_cons.mp hCut).resolve_left (by simp)
      have hMade :=
        steps_le_of_cut hSound hFits hReady hLater
      have hReach := hFits.coherent.reach_le_ids hSound.nodup
      have hFew :
          (arrivals none (followHistory o steps s)).length *
              (2 * o.ids.length) ≤
            diverts * (2 * o.ids.length) :=
        Nat.mul_le_mul_right _ hDiverts
      rw [Nat.add_mul, Nat.one_mul] at hSteps
      omega
  · cases hCut

/-
  A story that can be read comes to a halt wherever it is asked
  to go on, unless it follows diverts without end.  A step that
  yields no prompt and follows no divert, be it into a fallback
  that is sticky, has a lower rank after it: fewer parts are
  ahead, or as many in fewer frames.  So the steps that a story
  can make are bounded by the diverts that it follows: it does
  not run out of more of them, and further ones change nothing.
  Between two diverts it yields no more lines than the stitch
  has parts, the line that leads to the second divert included.
-/
theorem stories_halt_without_diverts
    {source : String}
    {story : Story}
    (hRead : Story.read source = .ok story)
    {s : State}
    (hReachable : Reachable story.outline s) :
    (s.status = .ready → ∀ r s',
      (step story.outline).runFrom s = (.ok r, s') →
      r.prompt = none →
      arrivals none (stepHistory story.outline s) = [] →
        s'.position.rank story.outline <
          s.position.rank story.outline) ∧
    (∀ diverts steps,
      (diverts + 1) * (2 * story.outline.ids.length) <
        steps →
      (arrivals none
        (resumeHistory story.outline steps s)).length ≤
          diverts →
        ((resume story.outline steps).runFrom s).1 ≠
            .error .stepsExhausted ∧
          ∀ more,
            (resume story.outline (steps + more)).runFrom s =
              (resume story.outline steps).runFrom s) ∧
    ∃ stitch,
      story.outline.stitch? s.location = some stitch ∧
      ∀ n ls s₁, s.Walks story.outline n ls s₁ →
        arrivals none
          (followHistory story.outline n s) = [] →
        ls.length ≤ stitch.body.ids.length ∧
        ∀ r s₂,
          (step story.outline).runFrom s₁ = (.ok r, s₂) →
          (ls ++ r.line.toList).length ≤
            stitch.body.ids.length := by
  have hSound := Story.isSound_of_read hRead
  have hFits := hReachable.fits hSound
  refine ⟨?_, ?_, ?_⟩
  · intro hReady r s' hStep hSilent hNowhere
    exact ((step_nears hSound hFits hReady hStep).2 hSilent
      hNowhere).rank_lt
  · intro diverts steps hSteps hDiverts
    have hUncut :=
      not_cut_of_steps hSound hFits hSteps hDiverts
    exact ⟨fun hRun => hUncut (cut_of_resume hRun),
      resume_of_not_cut hUncut⟩
  · rcases hFits.coherent.reach_le hSound.nodup with
      ⟨stitch, hStitch, hReach⟩
    refine ⟨stitch, hStitch, ?_⟩
    intro n ls s₁ hWalks hNowhere
    rw [Position.reach] at hReach
    have hLines := hWalks.lines_le hSound hFits hNowhere
    refine ⟨by omega, ?_⟩
    intro r s₂ hStep
    have hLast :=
      (step_nears hSound (hWalks.fits hSound hFits)
        hWalks.ready hStep).1
    rw [List.length_append]
    omega

/- A script whose only choice is a fallback that is sticky. -/
def fallbackScript : String :=
  "Begin\n+ ->\nInside\n- Out\n"

/-
  Whether the third step of a story goes into a branch without
  a prompt, and the story ends without a divert.
-/
def fallsBack
    (o : Outline) : Bool :=
  let s := ((resume o 2).runFrom (.start o 0)).2
  match (step o).runFrom s with
  | (.error _, _) => false
  | (.ok r, s') =>
      s.status = .ready && r.prompt.isNone &&
        (arrivals none (stepHistory o s)).isEmpty &&
        s.frames.length = 1 && s'.frames.length = 2 &&
        2 * o.ids.length < 99 &&
        (arrivals none
          (resumeHistory o 99 (.start o 0))).isEmpty

/-
  The story takes its fallback in the third step.  A frame more
  is there then, but fewer parts are ahead, and the story does
  not run out of 99 steps.
-/
theorem stories_halt_without_diverts_fallback :
    ∃ story s r s',
      Story.read fallbackScript = .ok story ∧
      Reachable story.outline s ∧
      (step story.outline).runFrom s = (.ok r, s') ∧
      s.frames.length < s'.frames.length ∧
      s'.position.rank story.outline <
        s.position.rank story.outline ∧
      ((resume story.outline 99).runFrom
          (.start story.outline 0)).1 ≠
        .error .stepsExhausted := by
  have hCheck :
      ((Story.read fallbackScript).toOption.any fun story =>
        fallsBack story.outline) = true := by
    decide +kernel
  rcases exists_ok_of_any hCheck with ⟨story, hRead, hFalls⟩
  rw [fallsBack] at hFalls
  split at hFalls
  · cases hFalls
  · next r s' hStep =>
      simp only [Bool.and_eq_true, decide_eq_true_eq,
        Option.isNone_iff_eq_none, List.isEmpty_iff] at hFalls
      rcases hFalls with
        ⟨⟨⟨⟨⟨⟨hReady, hSilent⟩, hNowhere⟩, hFrames⟩, hFrames'⟩,
          hParts⟩, hNoDivert⟩
      have hStart : Reachable story.outline _ := .start 0
      have hSteps := hStart.resume 2
      refine ⟨story, _, r, s', hRead, hSteps, hStep, by omega,
        (stories_halt_without_diverts hRead hSteps).1 hReady r
          s' hStep hSilent hNowhere, ?_⟩
      refine ((stories_halt_without_diverts hRead hStart).2.1 0
        99 (by omega) ?_).1
      rw [hNoDivert]
      exact Nat.le_refl 0

end BranchingStory
