import BranchingStory.Proofs.Runs
import BranchingStory.Proofs.Tours

/-
  This file shows that a story goes through its content as a
  tour does.  Whatever is told of it, from entering a stitch
  to leaving it, is told of the tour through the stitch with
  the same selections, however often the story stops for a
  prompt or a fault on the way.

  Key definitions include:
    * `segments`
    * `Position.Runs`
    * `Position.Tells`
    * `Position.told`
    * `followEvents`
    * `Call`
    * `eventsOf`

  Key theorems include:
    * `Position.Runs.tells`
    * `runFrom_step`
    * `follow_runs`
    * `calls_run`
    * `story_follows_tours`
-/

------------------------------------------------------------
-- Segments
------------------------------------------------------------

namespace BranchingStory

/-
  What is told from each entry of a stitch up to the next one,
  with the address that is entered.
-/
def segments :
    List Event → List (Address × List Event)
  | [] => []
  | .entered a :: es =>
      (a, es.takeWhile fun e => !e.isEntry) :: segments es
  | _ :: es => segments es

/- What is told without an entry adds no segment. -/
theorem segments_append_of_inner
    {new : List Event}
    (hNew : ∀ e ∈ new, e.isEntry = false)
    (es : List Event) :
    segments (new ++ es) = segments es := by
  induction new with
  | nil => rfl
  | cons e new ih =>
      rw [List.forall_mem_cons] at hNew
      rw [List.cons_append, ← ih hNew.2]
      cases e with
      | entered a => cases hNew.1
      | ran id => rfl
      | took branch => rfl
      | left => rfl
      | ended => rfl

/- What is told without an entry belongs to one segment. -/
theorem takeWhile_append_of_inner
    {new : List Event}
    (hNew : ∀ e ∈ new, e.isEntry = false)
    (es : List Event) :
    ((new ++ es).takeWhile fun e => !e.isEntry) =
      new ++ es.takeWhile fun e => !e.isEntry := by
  apply List.takeWhile_append_of_pos
  intro e hMem
  simp [hNew e hMem]

end BranchingStory

------------------------------------------------------------
-- Runs
------------------------------------------------------------

namespace BranchingStory

variable {o : Outline}

namespace Position

variable {p p' p'' : Position}
variable {es new : List Event}

/- Moves and choices, one after the other. -/
inductive Runs
    (o : Outline) :
    Position → List Event → Position → Prop where
  | done (p : Position) : Runs o p [] p
  | move
      {p p' p'' : Position}
      {new es : List Event}
      (hReady : p.status = .ready)
      (hMoves : p.Moves o new p')
      (hRuns : Runs o p' es p'') :
      Runs o p (new ++ es) p''
  | choose
      {p p'' : Position}
      {es : List Event}
      (f : Frame)
      (fs : List Frame)
      (id depth line : Nat)
      (branches : List Branch)
      (b : Branch)
      (hAt : p.IsAt o f fs (.choices id depth line branches))
      (hBranch : b ∈ branches)
      (hRuns : Runs o
        ⟨p.location, .ready, framesInto b.id f fs, []⟩ es
          p'') :
      Runs o p (.took b.id :: es) p''

/- A run may go on after another. -/
theorem Runs.trans
    (hFirst : p.Runs o new p')
    (hThen : p'.Runs o es p'') :
    p.Runs o (new ++ es) p'' := by
  induction hFirst with
  | done p => exact hThen
  | move hReady hMoves hRuns ih =>
      rw [List.append_assoc]
      exact Runs.move hReady hMoves (ih hThen)
  | choose f fs id depth line branches b hAt hBranch hRuns
      ih =>
      exact Runs.choose f fs id depth line branches b hAt
        hBranch (ih hThen)

/-
  Whether what is told from an entry of a stitch on is right:
  it is the beginning of a tour.  Unless it is closed, nothing
  is entered later and the story is still inside the stitch;
  while it presents choices then, the tour waits.
-/
def IsTold
    (stitch : Stitch)
    (told : List Event)
    (later : List (Address × List Event))
    (p : Position) : Prop :=
  ∃ inner close, told = inner ++ close ∧
    stitch.IsToured inner close ∧
    (close = [] → later = [] ∧ p.frames ≠ []) ∧
    (later = [] → p.status = .presenting →
      itemsTour stitch.body.items (selectionsOf told) =
        ⟨told, none⟩)

/-
  What is told of a run is right, segment by segment.  If the
  run begins inside a stitch, it goes on with the tour there.
-/
structure Tells
    (o : Outline)
    (p : Position)
    (es : List Event)
    (p' : Position) : Prop where
  toured : ∀ before a told later,
    segments es = before ++ (a, told) :: later →
      ∃ stitch, o.stitch? a = some stitch ∧
        IsTold stitch told later p'
  inside : ∀ stitch before, p.Continues o stitch before →
    IsTold stitch
      (before ++ es.takeWhile fun e => !e.isEntry)
      (segments es) p'
  outside : p.frames = [] →
    (es.takeWhile fun e => !e.isEntry) = [] ∧
      (segments es = [] → p'.status ≠ .presenting)

namespace Tells

/- Nothing is told of what does not move. -/
theorem done
    (hCoherent : p.IsCoherent o) :
    Tells o p [] p where
  toured := by
    intro before a told later hSegments
    simp [segments] at hSegments
  inside := by
    intro stitch before hContinues
    rw [List.takeWhile_nil, List.append_nil]
    refine ⟨before, [], (List.append_nil before).symm,
      hContinues.isToured, ?_, ?_⟩
    · intro _
      exact ⟨rfl, hContinues.inside⟩
    · intro _ hPresenting
      exact hContinues.waits hCoherent hPresenting
  outside := by
    intro hFrames
    refine ⟨rfl, ?_⟩
    intro _ hPresenting
    rcases hCoherent.offered hPresenting with
      ⟨f, fs, id, depth, line, branches, hAt, _⟩
    rw [hAt.1] at hFrames
    cases hFrames

/- A stitch that is entered begins a segment. -/
theorem enter
    (hNodup : o.ids.Nodup)
    (hFrames : p.frames = [])
    {stitch : Stitch}
    (hStitch : o.stitch? p.location = some stitch)
    (hTells : Tells o
      { p with frames := [⟨stitch.body.id, 0⟩] } es p'') :
    Tells o p (.entered p.location :: es) p'' := by
  constructor
  · intro before a told later hSegments
    rw [segments] at hSegments
    cases before with
    | nil =>
        cases hSegments
        exact ⟨stitch, hStitch, hTells.inside stitch []
          (Continues.enter hNodup hStitch)⟩
    | cons x before =>
        exact hTells.toured before a told later
          (List.cons.inj hSegments).2
  · intro stitch' before hContinues
    exact absurd hFrames hContinues.inside
  · intro _
    refine ⟨rfl, ?_⟩
    intro hNone
    cases hNone

/- Inside a stitch, what is told goes on with its segment. -/
theorem inner
    (hFrames : p.frames ≠ [])
    (hNew : ∀ e ∈ new, e.isEntry = false)
    (hStep : ∀ stitch before, p.Continues o stitch before →
      p'.Continues o stitch (before ++ new) ∨
        p'.frames = [] ∧ ∃ inner close,
          before ++ new = inner ++ close ∧ close ≠ [] ∧
            stitch.IsToured inner close)
    (hTells : Tells o p' es p'') :
    Tells o p (new ++ es) p'' := by
  have hSegments := segments_append_of_inner hNew es
  constructor
  · rw [hSegments]
    exact hTells.toured
  · intro stitch before hContinues
    rw [hSegments, takeWhile_append_of_inner hNew es,
      ← List.append_assoc]
    rcases hStep stitch before hContinues with
      hOn | ⟨hOut, inner, close, hSplit, hClosed, hToured⟩
    · exact hTells.inside stitch (before ++ new) hOn
    · rcases hTells.outside hOut with ⟨hNothing, hIdle⟩
      rw [hNothing, List.append_nil]
      refine ⟨inner, close, hSplit, hToured, ?_, ?_⟩
      · intro hOpen
        exact absurd hOpen hClosed
      · intro hNone hPresenting
        exact absurd hPresenting (hIdle hNone)
  · intro hOut
    exact absurd hOut hFrames

end Tells

/- Where no stitch is entered yet, one is entered next. -/
theorem Moves.enter_of_frames
    (hMoves : p.Moves o new p')
    (hFrames : p.frames = []) :
    ∃ stitch, o.stitch? p.location = some stitch ∧
      new = [.entered p.location] ∧
        p' = { p with frames := [⟨stitch.body.id, 0⟩] } := by
  have hNowhere {f : Frame} {fs : List Frame} {i : Item}
      (hAt : p.IsAt o f fs i) : False := by
    rw [hAt.1] at hFrames
    cases hFrames
  cases hMoves with
  | enter stitch _ hStitch => exact ⟨stitch, hStitch, rfl, rfl⟩
  | leave f g fs items hInside hBlock hEnd =>
      rw [hFrames] at hInside
      cases hInside
  | finish f items hInside hBlock hEnd =>
      rw [hFrames] at hInside
      cases hInside
  | pass f fs i hAt hItem => exact (hNowhere hAt).elim
  | divert f fs i a hAt hItem hAddress =>
      exact (hNowhere hAt).elim
  | conclude f fs i hAt hItem => exact (hNowhere hAt).elim
  | present f fs id depth line branches offers hAt hOffers
      hOffered => exact (hNowhere hAt).elim
  | take f fs id depth line branches b hAt hBranch =>
      exact (hNowhere hAt).elim
  | stick f fs id depth line branches hAt =>
      exact (hNowhere hAt).elim

/- Inside a stitch no stitch is entered. -/
theorem Moves.isEntry_of_frames
    (hMoves : p.Moves o new p')
    (hFrames : p.frames ≠ []) :
    ∀ e ∈ new, e.isEntry = false := by
  cases hMoves with
  | enter stitch hOutside hStitch =>
      exact absurd hOutside hFrames
  | leave f g fs items hInside hBlock hEnd => simp
  | finish f items hInside hBlock hEnd =>
      simp [Event.isEntry]
  | pass f fs i hAt hItem => simp [Event.isEntry]
  | divert f fs i a hAt hItem hAddress =>
      simp [Event.isEntry]
  | conclude f fs i hAt hItem => simp [Event.isEntry]
  | present f fs id depth line branches offers hAt hOffers
      hOffered => simp
  | take f fs id depth line branches b hAt hBranch =>
      simp [Event.isEntry]
  | stick f fs id depth line branches hAt => simp

/- What is told of a run is right. -/
theorem Runs.tells
    (hRuns : p.Runs o es p')
    (hNodup : o.ids.Nodup)
    (hCoherent : p.IsCoherent o) :
    Tells o p es p' := by
  induction hRuns with
  | done p => exact Tells.done hCoherent
  | @move p p' p'' new es hReady hMoves hRuns ih =>
      have hTells :=
        ih (hMoves.isCoherent hNodup hReady hCoherent)
      by_cases hFrames : p.frames = []
      · rcases hMoves.enter_of_frames hFrames with
          ⟨stitch, hStitch, rfl, rfl⟩
        exact Tells.enter hNodup hFrames hStitch hTells
      · exact Tells.inner hFrames
          (hMoves.isEntry_of_frames hFrames)
          (fun stitch before hContinues =>
            hContinues.moves hMoves hNodup hCoherent) hTells
  | choose f fs id depth line branches b hAt hBranch hRuns
      ih =>
      have hTells :=
        ih (hCoherent.take hNodup hAt
          (List.mem_map_of_mem hBranch))
      have hNew :
          ∀ e ∈ [Event.took b.id], e.isEntry = false := by
        simp [Event.isEntry]
      refine Tells.inner (by simp [hAt.1]) hNew ?_ hTells
      intro stitch before hContinues
      exact Or.inl (hContinues.take hCoherent hNodup hAt
        hBranch rfl)

end Position

end BranchingStory

------------------------------------------------------------
-- What Is Told Of A Step
------------------------------------------------------------

namespace BranchingStory

open Play

variable {o : Outline}

namespace Position

/- The part that comes next, if the story is inside a block. -/
def next?
    (o : Outline)
    (p : Position) : Option Item := do
  let f ← p.frames.head?
  let items ← o.block? f.block
  itemAt? items f.index

/-
  What is told of a step, by where the story is before and
  after it.  A part that comes next is executed, unless it is
  a set of choices; there, a new frame tells a branch.  Where
  no frame is left the stitch has been left.  That the step
  does execute this part is said by `runFrom_step`.
-/
def told
    (o : Outline)
    (p p' : Position) : List Event :=
  match p.frames, p.next? o with
  | [], _ => [.entered p.location]
  | _, none => if p'.frames.isEmpty then [.ended] else []
  | _, some i =>
      if !i.isChoices then
        .ran i.id :: if p'.frames.isEmpty then [.left] else []
      else if p.frames.length < p'.frames.length then
        p'.frames.head?.toList.map fun f => .took f.block
      else []

variable {p p' : Position}
variable {f : Frame}
variable {fs : List Frame}

/- What comes next is what a story stands at. -/
theorem IsAt.next?_eq
    {i : Item}
    (hAt : p.IsAt o f fs i) :
    p.next? o = some i := by
  rcases hAt with ⟨hFrames, items, hBlock, hItem⟩
  simp [next?, hFrames, hBlock, hItem]

/- Nothing comes next at the end of a block. -/
theorem IsCoherent.next?_eq_none
    (hCoherent : p.IsCoherent o)
    {items : List Item}
    (hFrames : p.frames = f :: fs)
    (hBlock : o.block? f.block = some items)
    (hEnd : items.length ≤ f.index) :
    p.next? o = none := by
  rcases
      hCoherent.places f (hFrames ▸ List.mem_cons_self) with
    ⟨items', _, hNatural, _⟩
  have hNone : itemAt? items f.index = none := by
    rw [itemAt?, if_pos hNatural]
    exact List.getElem?_eq_none (by omega)
  simp [next?, hFrames, hBlock, hNone]

/- What is told of a step is what its move tells. -/
theorem Moves.told_eq
    {new : List Event}
    (hMoves : p.Moves o new p')
    (hCoherent : p.IsCoherent o) :
    p.told o p' = new := by
  cases hMoves with
  | enter stitch hFrames hStitch => simp [told, hFrames]
  | leave f g fs items hFrames hBlock hEnd =>
      have hNext :=
        hCoherent.next?_eq_none hFrames hBlock hEnd
      simp [told, hFrames, hNext]
  | finish f items hFrames hBlock hEnd =>
      have hNext :=
        hCoherent.next?_eq_none hFrames hBlock hEnd
      simp [told, hFrames, hNext]
  | pass f fs i hAt hItem =>
      simp [told, hAt.1, hAt.next?_eq, hItem]
  | divert f fs i a hAt hItem hAddress =>
      simp [told, hAt.1, hAt.next?_eq, hItem]
  | conclude f fs i hAt hItem =>
      simp [told, hAt.1, hAt.next?_eq, hItem]
  | present f fs id depth line branches offers hAt hOffers
      hOffered =>
      simp [told, hAt.1, hAt.next?_eq, Item.isChoices]
  | take f fs id depth line branches b hAt hBranch =>
      simp [told, hAt.1, hAt.next?_eq, Item.isChoices,
        framesInto]
  | stick f fs id depth line branches hAt =>
      simp [told, hAt.1, hAt.next?_eq, Item.isChoices]

end Position

/-
  The part that is told to be executed is the one that a step
  executes.
-/
theorem runFrom_step
    {s : State}
    {f : Frame}
    {fs : List Frame}
    {i : Item}
    (hCoherent : s.position.IsCoherent o)
    (hAt : s.position.IsAt o f fs i)
    (hItem : i.isChoices = false) :
    (step o).runFrom s =
      (execute o i).runFrom
        { s with frames := f.past :: fs } := by
  rcases hCoherent.index_lt hAt with
    ⟨items, hBlock, hNatural, hBound, _⟩
  rcases hAt with ⟨hFrames, items', hBlock', hSome⟩
  rw [hBlock] at hBlock'
  cases hBlock'
  have hFrames' : s.frames = f :: fs := hFrames
  have hItemAt : itemAt items f.index = pure i := by
    rw [itemAt, hSome]
  unfold step
  simp only [runFrom_bind, runFrom_get, hFrames', hBlock,
    if_neg (Int.not_le.mpr hBound), hItemAt, runFrom_pure,
    hItem, Bool.not_false, if_true, runFrom_modify]
  rfl

end BranchingStory

------------------------------------------------------------
-- What Is Told Of Calls
------------------------------------------------------------

namespace BranchingStory

open Play

variable {o : Outline}
variable {s : State}

/- What is told of the steps that a story is followed by. -/
def followEvents
    (o : Outline) : Nat → State → List Event
  | 0, _ => []
  | n + 1, s =>
      match (step o).runFrom s with
      | (.error _, s') => s.position.told o s'.position
      | (.ok r, s') =>
          s.position.told o s'.position ++
            if r.prompt.isSome then [] else followEvents o n s'

/- What is told of going on with a story. -/
def resumeEvents
    (o : Outline)
    (steps : Nat)
    (s : State) : List Event :=
  if s.status = .ready then followEvents o steps s else []

/- What is told of choosing. -/
def chooseEvents
    (index : Int)
    (s : State) : List Event :=
  match (choose index).runFrom s with
  | (.error _, _) => []
  | (.ok _, s') =>
      s'.frames.head?.toList.map fun f => .took f.block

/- What a player asks of a story: to go on, or a choice. -/
inductive Call where
  | resume (steps : Nat)
  | choose (index : Int)
deriving DecidableEq, Repr

/- The state after calls, whatever faults they meet. -/
def stateAfter
    (o : Outline) : List Call → State → State
  | [], s => s
  | .resume steps :: calls, s =>
      stateAfter o calls ((resume o steps).runFrom s).2
  | .choose index :: calls, s =>
      stateAfter o calls ((choose index).runFrom s).2

/- What is told of calls, one after the other. -/
def eventsOf
    (o : Outline) : List Call → State → List Event
  | [], _ => []
  | .resume steps :: calls, s =>
      resumeEvents o steps s ++
        eventsOf o calls ((resume o steps).runFrom s).2
  | .choose index :: calls, s =>
      chooseEvents index s ++
        eventsOf o calls ((choose index).runFrom s).2

/- A story that is followed runs as is told of its steps. -/
theorem follow_runs
    (hSound : o.IsSound)
    (n : Nat)
    (hFits : s.Fits o)
    (hReady : s.status = .ready) :
    s.position.Runs o (followEvents o n s)
      ((follow o n).runFrom s).2.position := by
  induction n generalizing s with
  | zero => exact Position.Runs.done s.position
  | succ n ih =>
      have hEnds :=
        step_ends hSound hFits.sound hFits.coherent hReady
      rw [followEvents, follow, runFrom_bind]
      unfold Ends at hEnds
      generalize (step o).runFrom s = p at hEnds ⊢
      rcases p with ⟨e | r, s'⟩
      · rcases hEnds with ⟨⟨_, new, hMoves⟩, _⟩
        simp only [hMoves.told_eq hFits.coherent]
        have hRun :=
          Position.Runs.move hReady hMoves
            (Position.Runs.done s'.position)
        rw [List.append_nil] at hRun
        exact hRun
      · rcases hEnds with ⟨hSteps, hPrompt⟩
        rcases hSteps.moves with ⟨new, hMoves⟩
        simp only [hMoves.told_eq hFits.coherent]
        apply Position.Runs.move hReady hMoves
        cases hSome : r.prompt with
        | some prompt => exact Position.Runs.done s'.position
        | none =>
            have hReady' : s'.status = .ready := by
              rw [hSome] at hPrompt
              exact State.ready_of_prompt? hPrompt.symm
            have hRuns :=
              ih (hSteps.fits hSound.nodup hReady hFits)
                hReady'
            rw [runFrom_bind]
            generalize (follow o n).runFrom s' = q at hRuns ⊢
            rcases q with ⟨e | r', s''⟩
            · exact hRuns
            · exact hRuns

/- A story that is resumed runs as is told of it. -/
theorem resume_runs
    (hSound : o.IsSound)
    (steps : Nat)
    (hFits : s.Fits o) :
    s.position.Runs o (resumeEvents o steps s)
      ((resume o steps).runFrom s).2.position := by
  unfold resumeEvents resume
  rw [runFrom_bind, runFrom_get]
  simp only
  cases hStatus : s.status with
  | finished => exact Position.Runs.done s.position
  | presenting => exact Position.Runs.done s.position
  | ready =>
      have hRuns := follow_runs hSound steps hFits hStatus
      simp only [if_true, runFrom_bind]
      generalize (follow o steps).runFrom s = q at hRuns ⊢
      rcases q with ⟨e | r, s'⟩
      · exact hRuns
      · exact hRuns

/- A choice that is made runs as is told of it. -/
theorem choose_runs
    (hSound : o.IsSound)
    (index : Int)
    (hFits : s.Fits o) :
    s.position.Runs o (chooseEvents index s)
      ((choose index).runFrom s).2.position := by
  have hEnds := choose_ends hSound index hFits
  unfold chooseEvents
  unfold Ends at hEnds
  generalize (choose index).runFrom s = q at hEnds ⊢
  rcases q with ⟨e | u, s'⟩
  · rcases hEnds with ⟨rfl, _⟩
    exact Position.Runs.done s'.position
  · rcases hEnds with
      ⟨_, f, fs, id, depth, line, branches, b, hAt, hBranch,
        hPosition⟩
    have hFrames : s'.frames = Position.framesInto b.id f fs :=
      congrArg Position.frames hPosition
    simp only [hFrames, hPosition]
    exact Position.Runs.choose f fs id depth line branches b
      hAt hBranch (Position.Runs.done _)

/- Calls run as is told of them, one after the other. -/
theorem calls_run
    (hSound : o.IsSound)
    (calls : List Call)
    (hFits : s.Fits o) :
    s.position.Runs o (eventsOf o calls s)
      (stateAfter o calls s).position := by
  induction calls generalizing s with
  | nil => exact Position.Runs.done s.position
  | cons call calls ih =>
      cases call with
      | resume steps =>
          apply (resume_runs hSound steps hFits).trans
          exact ih (hFits.resume hSound steps)
      | choose index =>
          apply (choose_runs hSound index hFits).trans
          exact ih (hFits.choose hSound index)

end BranchingStory

------------------------------------------------------------
-- Following Tours
------------------------------------------------------------

namespace BranchingStory

variable {o : Outline}

/- No part is executed twice on the way through a stitch. -/
theorem Stitch.IsToured.nodup
    {stitch : Stitch}
    {es close : List Event}
    (hToured : stitch.IsToured es close)
    (hNodup : o.ids.Nodup)
    {a : Address}
    (hStitch : o.stitch? a = some stitch) :
    (nodesOf es).Nodup := by
  have hIds :=
    Outline.nodup_body hNodup
      (Outline.body_mem_bodies hStitch)
  rw [Body.ids_eq, List.nodup_cons] at hIds
  have hBegun := (hToured.begun []).sublist
  exact hIds.2.sublist
    ((hBegun.filterMap Event.node?).trans
      (nodesOf_itemsTour_sublist _ _))

/-
  A story that can be read goes through its content as a tour
  does.  From whatever state it comes to, and however it is
  called on to go on and given choices: what is told of it
  from an entry of a stitch on is the beginning of the tour
  through that stitch with the same selections, and no part of
  it is executed twice.  It stops being that only where it is
  closed, by a divert or because the tour is complete; while
  choices are presented, the tour waits as well.
-/
theorem story_follows_tours
    {source : String}
    {story : Story}
    (hRead : Story.read source = .ok story)
    {s : State}
    (hReachable : Reachable story.outline s)
    (calls : List Call)
    (before : List (Address × List Event))
    (a : Address)
    (told : List Event)
    (later : List (Address × List Event))
    (hSegments :
      segments (eventsOf story.outline calls s) =
        before ++ (a, told) :: later) :
    ∃ stitch inner close,
      story.outline.stitch? a = some stitch ∧
      told = inner ++ close ∧
      stitch.IsToured inner close ∧
      (nodesOf inner).Nodup ∧
      (close = [] → later = [] ∧
        (stateAfter story.outline calls s).frames ≠ []) ∧
      (later = [] →
        (stateAfter story.outline calls s).status =
            .presenting →
          itemsTour stitch.body.items (selectionsOf told) =
            ⟨told, none⟩) := by
  have hSound := Story.isSound_of_read hRead
  have hFits := hReachable.fits hSound
  have hTells :=
    (calls_run hSound calls hFits).tells hSound.nodup
      hFits.coherent
  rcases hTells.toured before a told later hSegments with
    ⟨stitch, hStitch, inner, close, hSplit, hToured, hOpen,
      hWaits⟩
  exact ⟨stitch, inner, close, hStitch, hSplit, hToured,
    hToured.nodup hSound.nodup hStitch, hOpen, hWaits⟩

/-
  A story with a choice and a gather inside a choice, played
  to its end with two choices: four parts are executed, in the
  order of the tour, which is complete.
-/
theorem story_follows_tours_nested :
    ∃ story a told stitch inner close,
      Story.read "* One\n** Deep\n-- In\n- Out\n" =
          .ok story ∧
        segments (eventsOf story.outline
            [.resume 9, .choose 0, .resume 9, .choose 0,
              .resume 9]
            (State.start story.outline 0)) = [(a, told)] ∧
        (nodesOf told).length = 4 ∧
        story.outline.stitch? a = some stitch ∧
        told = inner ++ close ∧
        stitch.IsToured inner close ∧
        (nodesOf inner).Nodup ∧ close = [.ended] := by
  have hCheck :
      (match Story.read "* One\n** Deep\n-- In\n- Out\n" with
        | .error _ => false
        | .ok story =>
            let parts := segments (eventsOf story.outline
              [.resume 9, .choose 0, .resume 9, .choose 0,
                .resume 9]
              (State.start story.outline 0))
            parts.length = 1 && parts.all fun part =>
              (nodesOf part.2).length = 4 &&
                part.2.getLast? = some .ended) = true := by
    decide +kernel
  cases hRead :
      Story.read "* One\n** Deep\n-- In\n- Out\n" with
  | error e =>
      rw [hRead] at hCheck
      cases hCheck
  | ok story =>
      rw [hRead] at hCheck
      simp only [Bool.and_eq_true, decide_eq_true_eq,
        List.length_eq_one_iff] at hCheck
      rcases hCheck with ⟨⟨⟨a, told⟩, hSegments⟩, hCheck⟩
      rw [hSegments] at hCheck
      simp only [List.all_cons, List.all_nil, Bool.and_true,
        Bool.and_eq_true, decide_eq_true_eq] at hCheck
      rcases hCheck with ⟨hFour, hLast⟩
      rcases
          story_follows_tours hRead (Reachable.start 0) _ []
            a told [] hSegments with
        ⟨stitch, inner, close, hStitch, hSplit, hToured,
          hNodup, _⟩
      refine ⟨story, a, told, stitch, inner, close, rfl,
        hSegments, hFour, hStitch, hSplit, hToured, hNodup, ?_⟩
      -- What closes the tour is told last.
      rcases hToured.closed with rfl | rfl | ⟨rfl, _⟩
      · rw [List.append_nil] at hSplit
        subst hSplit
        have hEnded :=
          hToured.inner .ended (List.mem_of_getLast? hLast)
        cases hEnded
      · rfl
      · rw [hSplit, List.getLast?_concat] at hLast
        cases hLast

end BranchingStory
