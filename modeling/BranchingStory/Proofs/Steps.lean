import BranchingStory.Proofs.Moves

/-
  This file shows that a step of a story that can be read
  makes one of the moves, whether it yields a line or a prompt
  or is stopped by a foreseen fault.

  Key definitions include:
    * `Position.Follows`
    * `Position.Steps`

  Key theorems include:
    * `followDivert_ends`
    * `execute_ends`
    * `arriveAt_ends`
    * `step_ends`
-/

------------------------------------------------------------
-- Diverts
------------------------------------------------------------

namespace BranchingStory

open Play

variable {o : Outline}

/-
  Whether a position is the same as another, or that after a
  divert to a place or to the end.
-/
inductive Position.Follows
    (o : Outline)
    (p : Position) : Position → Prop where
  | stay : Follows o p p
  | divert
      (a : Address)
      (hAddress : o.hasAddress a = true) :
      Follows o p { p with location := a, frames := [] }
  | conclude :
      Follows o p
        { p with status := .finished, frames := [] }

/-
  A divert with a destination leads to a place or the end,
  wherever the variables fit.  Nothing changes.
-/
theorem divertPlace?_ends
    (hSound : o.IsSound)
    {d : Divert}
    (hLeads : d.Leads o)
    {s : State}
    (hFits : s.memory.Fits o o.IsPath) :
    Ends (divertPlace? d) s
      (fun a? s' => s' = s ∧
        ∀ a, a? = some a → o.hasAddress a = true)
      (fun _ _ => False) := by
  rcases hLeads with ⟨destination, hSome, hExists⟩
  unfold divertPlace?
  rw [hSome]
  cases destination with
  | finish =>
      refine ⟨rfl, ?_⟩
      intro a hPlace
      cases hPlace
  | place a =>
      refine ⟨rfl, ?_⟩
      intro a' hPlace
      cases hPlace
      exact hExists
  | throughVariable name =>
      rcases hExists with ⟨d, hDeclared, hKind⟩
      rcases hFits name d hDeclared with ⟨v, hLookup, hOfKind⟩
      rw [hKind] at hOfKind
      simp only [ends_bind, ends_get, hLookup]
      refine ⟨rfl, ?_⟩
      intro a hPlace
      cases hPlace
      have hDivert := hOfKind.kind
      cases v with
      | divert path =>
          exact hSound.hasAddress_ofPath
            (hOfKind.path path rfl)
      | int n => cases hDivert
      | float x => cases hDivert
      | bool b => cases hDivert
      | string s => cases hDivert

/- The same of states that remember what fits their story. -/
theorem divertPlace?_stays
    (hSound : o.IsSound)
    {d : Divert}
    (hLeads : d.Leads o) :
    Stays o (divertPlace? d) fun a? =>
      ∀ a, a? = some a → o.hasAddress a = true := by
  intro s hState
  refine (divertPlace?_ends hSound hLeads hState.fits).mono
    ?_ fun _ _ hNever => hNever.elim
  rintro a? s' ⟨rfl, hAddress⟩
  exact ⟨hState, rfl, hAddress⟩

/- A divert is followed, or none is there to be followed. -/
theorem followDivert_ends
    (hSound : o.IsSound)
    {d? : Option Divert}
    (hLeads : ∀ d, d? = some d → d.Leads o)
    {s : State}
    (hState : s.IsSound o)
    (hReady : s.status = .ready) :
    Ends (followDivert d?) s
      (fun prompt s' => s'.IsSound o ∧
        s.position.Follows o s'.position ∧
          prompt = s'.prompt?)
      (fun e s' => s'.IsSound o ∧
        s'.position = s.position ∧
          e.isForeseen = true) := by
  cases d? with
  | none =>
      refine ⟨hState, Position.Follows.stay, ?_⟩
      rw [State.prompt?, hReady]
  | some d =>
      rw [followDivert, ends_bind]
      have hPlace :=
        divertPlace?_stays hSound (hLeads d rfl) s hState
      refine hPlace.mono ?_ ?_
      · rintro a? s' ⟨hState', hPosition, hAddress⟩
        rw [← hPosition]
        have hReady' : s'.status = .ready :=
          (congrArg Position.status hPosition).trans hReady
        cases a? with
        | none =>
            exact ⟨hState'.withPosition
                ⟨s'.location, .finished, [], s'.offers⟩,
              Position.Follows.conclude, rfl⟩
        | some a =>
            refine ⟨hState'.withPosition
                ⟨a, s'.status, [], s'.offers⟩,
              Position.Follows.divert a (hAddress a rfl), ?_⟩
            change none = State.prompt? { s' with .. }
            simp only [State.prompt?, hReady']
      · intro e s' hFault
        exact hFault

end BranchingStory

------------------------------------------------------------
-- Content
------------------------------------------------------------

namespace BranchingStory

open Play

variable {o : Outline}

/- A line is rendered, and its divert followed. -/
theorem emit_ends
    (hSound : o.IsSound)
    {l : ContentLine}
    (hPlayable : Fragment.ArePlayable o l.fragments)
    {s : State}
    (hState : s.IsSound o)
    (hReady : s.status = .ready) :
    Ends (emit l) s
      (fun r s' => s'.IsSound o ∧
        s.position.Follows o s'.position ∧
          r.prompt = s'.prompt?)
      (fun e s' => s'.IsSound o ∧
        s'.position = s.position ∧
          e.isForeseen = true) := by
  unfold emit
  rw [ends_bind]
  refine (render_stays hSound hPlayable s hState).mono ?_ ?_
  · rintro ⟨text, d⟩ s' ⟨hState', hPosition, hLeads⟩
    rw [← hPosition]
    have hReady' : s'.status = .ready :=
      (congrArg Position.status hPosition).trans hReady
    simp only [ends_bind, ends_pure]
    exact followDivert_ends hSound hLeads hState' hReady'
  · intro e s' hFault
    exact hFault

/-
  A part of the content that is no set of choices is executed,
  and a divert that it ends with is followed.
-/
theorem execute_ends
    (hSound : o.IsSound)
    {i : Item}
    (hLeaf : (i.id, i.node.leaf) ∈ o.leaves)
    (hItem : i.isChoices = false)
    {s : State}
    (hState : s.IsSound o)
    (hReady : s.status = .ready) :
    Ends (execute o i) s
      (fun r s' => s'.IsSound o ∧
        s.position.Follows o s'.position ∧
          r.prompt = s'.prompt?)
      (fun e s' => s'.IsSound o ∧
        s'.position = s.position ∧
          e.isForeseen = true) := by
  have hPrompt : none = s.prompt? := by
    rw [State.prompt?, hReady]
  cases i with
  | line id content =>
      have hPlayable :=
        hSound.arePlayable hLeaf (l := content)
          List.mem_cons_self
      exact emit_ends hSound hPlayable hState hReady
  | gather id depth content? =>
      cases content? with
      | none =>
          exact ⟨hState, Position.Follows.stay, hPrompt⟩
      | some content =>
          have hPlayable :=
            hSound.arePlayable hLeaf (l := content)
              List.mem_cons_self
          exact emit_ends hSound hPlayable hState hReady
  | assign id name value line =>
      rcases
          (hSound.leaves _ hLeaf).assigned name value rfl with
        ⟨d, hLookup, hKind⟩
      rw [execute, ends_bind]
      refine (assign_ends hLookup hKind
        (fun _ => Outline.isPath_path) hState.fits).mono ?_ ?_
      · rintro _ s' ⟨v, hFits, rfl⟩
        exact ⟨hState.setVariable hLookup hFits,
          Position.Follows.stay, hPrompt⟩
      · rintro e s' ⟨rfl, f, rfl, hNumeric⟩
        exact ⟨hState, rfl, hNumeric⟩
  | choices id depth line branches => cases hItem

end BranchingStory

------------------------------------------------------------
-- Choices
------------------------------------------------------------

namespace BranchingStory

open Play

variable {o : Outline}

/- A branch is taken where there is a frame around it. -/
theorem takeBranch_ends
    {f : Frame}
    {fs : List Frame}
    {branch : Nat}
    (hBound : branch < o.size)
    {s : State}
    (hState : s.IsSound o)
    (hFrames : s.frames = f :: fs)
    {E : PlayError → State → Prop} :
    Ends (takeBranch branch) s
      (fun _ s' => s'.IsSound o ∧
        s'.position = { s.position with
          frames := Position.framesInto branch f fs })
      E := by
  have hFrames' : (s.countChosen branch).frames = f :: fs :=
    hFrames
  unfold takeBranch
  rw [ends_bind, ends_modify, ends_bind, ends_get, hFrames']
  exact ⟨(hState.countChosen hBound).withPosition
    ⟨s.location, s.status,
      Position.framesInto branch f fs, s.offers⟩, rfl⟩

/-
  How a step can end: with a sound state, after one of the
  moves, and with the prompt of that state.  A fault leaves no
  prompt.
-/
structure Position.Steps
    (o : Outline)
    (p : Position)
    (s' : State) : Prop where
  sound : s'.IsSound o
  moves : ∃ es, p.Moves o es s'.position

variable {f : Frame}
variable {fs : List Frame}
variable {id depth line : Nat}
variable {branches : List Branch}
variable {s : State}

/- A story that gets no further stays ready where it is. -/
theorem Position.Steps.stick
    {s' : State}
    (hAt : s.position.IsAt o f fs
      (.choices id depth line branches))
    (hReady : s.status = .ready)
    (hState : s'.IsSound o)
    (hPosition : s'.position = s.position) :
    s.position.Steps o s' ∧ s'.status = .ready := by
  refine ⟨⟨hState, [], ?_⟩,
    (congrArg Position.status hPosition).trans hReady⟩
  rw [hPosition]
  exact Position.Moves.stick f fs id depth line branches hAt

/- A fallback is taken without being offered. -/
theorem takeFallback_ends
    (hSound : o.IsSound)
    (hAt : s.position.IsAt o f fs
      (.choices id depth line branches))
    {b : Branch}
    (hBranch : b ∈ branches)
    (hBranches : branches ⊆ o.branches)
    (hState : s.IsSound o)
    (hReady : s.status = .ready)
    {E : PlayError → State → Prop} :
    Ends (takeBranch b.id) s
      (fun _ s' => s.position.Steps o s' ∧ none = s'.prompt?)
      E := by
  have hBound : b.id < o.size :=
    hSound.lt_size (Outline.branchId_mem_ids
      (hBranches hBranch))
  refine (takeBranch_ends hBound hState hAt.1).mono ?_
    fun _ _ hFault => hFault
  rintro _ s' ⟨hState', hPosition⟩
  refine ⟨⟨hState', [.took b.id], ?_⟩, ?_⟩
  · rw [hPosition]
    exact Position.Moves.take f fs id depth line branches b
      hAt hBranch
  · have hStatus : s'.status = s.status :=
      congrArg Position.status hPosition
    rw [State.prompt?, hStatus, hReady]

/-
  At a set of choices, the branches that can be taken are
  offered, or a fallback is taken, or none is left.
-/
theorem arriveAt_ends
    (hSound : o.IsSound)
    (hAt : s.position.IsAt o f fs
      (.choices id depth line branches))
    (hBranches : branches ⊆ o.branches)
    (hPlayable : ∀ b ∈ branches, b.IsPlayable o)
    (hState : s.IsSound o)
    (hReady : s.status = .ready) :
    Ends (arriveAt line branches) s
      (fun r s' => s.position.Steps o s' ∧
        r.prompt = s'.prompt?)
      (fun e s' => s.position.Steps o s' ∧
        s'.status = .ready ∧ e.isForeseen = true) := by
  unfold arriveAt
  rw [ends_bind]
  refine (offersOf_stays hSound hPlayable s hState).mono ?_ ?_
  · rintro offers s₁ ⟨hState₁, hPosition₁, hOffered⟩
    cases offers with
    | cons offer offers =>
        rw [← hPosition₁] at hAt ⊢
        refine ⟨⟨hState₁.withPosition
          ⟨s₁.location, .presenting, s₁.frames,
            offer :: offers⟩, [], ?_⟩, rfl⟩
        exact Position.Moves.present f fs id depth line
          branches (offer :: offers) hAt (by simp) hOffered
    | nil =>
        simp only [ends_bind]
        refine (findFallback?_stays hSound hPlayable s₁
          hState₁).mono ?_ ?_
        · rintro b? s₂ ⟨hState₂, hPosition₂, hAmong⟩
          have hPosition := hPosition₂.trans hPosition₁
          cases b? with
          | none =>
              rcases
                  Position.Steps.stick hAt hReady hState₂
                    hPosition with
                ⟨hSteps, hReady₂⟩
              exact ⟨hSteps, hReady₂, rfl⟩
          | some b =>
              have hReady₂ : s₂.status = .ready :=
                (congrArg Position.status hPosition).trans
                  hReady
              rw [← hPosition] at hAt ⊢
              simp only [ends_bind, ends_pure]
              exact takeFallback_ends hSound hAt
                (hAmong b rfl) hBranches hState₂ hReady₂
        · rintro e s₂ ⟨hState₂, hPosition₂, hForeseen⟩
          rcases
              Position.Steps.stick hAt hReady hState₂
                (hPosition₂.trans hPosition₁) with
            ⟨hSteps, hReady₂⟩
          exact ⟨hSteps, hReady₂, hForeseen⟩
  · rintro e s₁ ⟨hState₁, hPosition, hForeseen⟩
    rcases
        Position.Steps.stick hAt hReady hState₁ hPosition with
      ⟨hSteps, hReady₁⟩
    exact ⟨hSteps, hReady₁, hForeseen⟩

end BranchingStory

------------------------------------------------------------
-- Steps
------------------------------------------------------------

namespace BranchingStory

open Play

variable {o : Outline}

namespace Position

variable {p : Position}
variable {f : Frame}
variable {fs : List Frame}

/- To come past a part and follow its divert is a move. -/
theorem Follows.moves
    {i : Item}
    {p' : Position}
    (hFollows :
      { p with frames := f.past :: fs }.Follows o p')
    (hAt : p.IsAt o f fs i)
    (hItem : i.isChoices = false) :
    ∃ es, p.Moves o es p' := by
  cases hFollows with
  | stay => exact ⟨_, Moves.pass f fs i hAt hItem⟩
  | divert a hAddress =>
      exact ⟨_, Moves.divert f fs i a hAt hItem hAddress⟩
  | conclude => exact ⟨_, Moves.conclude f fs i hAt hItem⟩

/- What a story stands at is among its leaves. -/
theorem IsCoherent.leaf_mem
    (hCoherent : p.IsCoherent o)
    {i : Item}
    (hAt : p.IsAt o f fs i) :
    (i.id, i.node.leaf) ∈ o.leaves := by
  rcases hCoherent.item_mem hAt with ⟨items, hBlock, hItem⟩
  exact Outline.itemLeaves_block_subset hBlock
    (leaf_mem_itemLeaves (subset_innerItems items hItem))

/- The choices that a story stands at are among its leaves. -/
theorem IsCoherent.isPlayable
    (hCoherent : p.IsCoherent o)
    {id depth line : Nat}
    {branches : List Branch}
    (hAt : p.IsAt o f fs (.choices id depth line branches))
    {b : Branch}
    (hBranch : b ∈ branches) :
    b.IsPlayable o := by
  rcases hCoherent.item_mem hAt with ⟨items, hBlock, hItem⟩
  exact Outline.itemLeaves_block_subset hBlock
    (choice_mem_itemLeaves (subset_branchesIn hItem hBranch))

end Position

/- A block is left at its end for the one around it. -/
theorem leave_ends
    {f : Frame}
    {fs : List Frame}
    {items : List Item}
    {s : State}
    (hFrames : s.frames = f :: fs)
    (hBlock : o.block? f.block = some items)
    (hEnd : items.length ≤ f.index)
    (hState : s.IsSound o)
    (hReady : s.status = .ready)
    {E : PlayError → State → Prop} :
    Ends (leave fs) s
      (fun r s' => s.position.Steps o s' ∧
        r.prompt = s'.prompt?)
      E := by
  cases fs with
  | nil =>
      exact ⟨⟨hState.withPosition
          ⟨s.location, .finished, [], s.offers⟩, _,
        Position.Moves.finish f items hFrames hBlock hEnd⟩,
        rfl⟩
  | cons g fs =>
      refine ⟨⟨hState.withPosition
          ⟨s.location, s.status, g :: fs, s.offers⟩, _,
        Position.Moves.leave f g fs items hFrames hBlock
          hEnd⟩, ?_⟩
      change none = State.prompt? { s with frames := g :: fs }
      simp only [State.prompt?, hReady]

/- The stitch at the location is entered. -/
theorem enter_ends
    {s : State}
    (hFrames : s.frames = [])
    (hLocation : o.hasAddress s.location = true)
    (hState : s.IsSound o)
    (hReady : s.status = .ready)
    {E : PlayError → State → Prop} :
    Ends (enter o) s
      (fun r s' => s.position.Steps o s' ∧
        r.prompt = s'.prompt?)
      E := by
  rcases Option.isSome_iff_exists.mp hLocation with
    ⟨stitch, hStitch⟩
  unfold enter
  rw [ends_bind, ends_get, hStitch]
  simp only [ends_bind, ends_set, ends_pure]
  refine ⟨⟨(hState.countVisit hLocation).withPosition
      ⟨s.location, s.status, [⟨stitch.body.id, 0⟩],
        s.offers⟩, _,
    Position.Moves.enter stitch hFrames hStitch⟩, ?_⟩
  change none = State.prompt? { s.countVisit s.location with
    frames := [⟨stitch.body.id, 0⟩] }
  have hReady' :
      (s.countVisit s.location).status = .ready := hReady
  simp only [State.prompt?, hReady']

/-
  A step makes one of the moves.  The prompt that it yields is
  that of the state after it, and only foreseen faults stop it.
-/
theorem step_ends
    (hSound : o.IsSound)
    {s : State}
    (hState : s.IsSound o)
    (hCoherent : s.position.IsCoherent o)
    (hReady : s.status = .ready) :
    Ends (step o) s
      (fun r s' => s.position.Steps o s' ∧
        r.prompt = s'.prompt?)
      (fun e s' => s.position.Steps o s' ∧
        s'.status = .ready ∧ e.isForeseen = true) := by
  unfold step
  rw [ends_bind, ends_get]
  cases hFrames : s.frames with
  | nil =>
      exact enter_ends hFrames hCoherent.location hState hReady
  | cons f fs =>
      have hMem : f ∈ s.frames := by
        rw [hFrames]
        exact List.mem_cons_self
      rcases hCoherent.places f hMem with
        ⟨items, hBlock, hNatural, hBound⟩
      simp only [hBlock]
      split
      · next hEnd =>
          exact leave_ends hFrames hBlock hEnd hState hReady
      · next hInside =>
          rcases
              itemAt_eq hNatural (Int.not_le.mp hInside) with
            ⟨i, _, hItem, hItemAt⟩
          have hAt : s.position.IsAt o f fs i :=
            ⟨hFrames, items, hBlock, hItem⟩
          rw [hItemAt, pure_bind]
          cases hChoices : i.isChoices with
          | true =>
              cases i with
              | choices id depth line branches =>
                  exact arriveAt_ends hSound hAt
                    (hCoherent.branches_subset hAt)
                    (fun b hBranch =>
                      hCoherent.isPlayable hAt hBranch)
                    hState hReady
              | line id content => cases hChoices
              | gather id depth content => cases hChoices
              | assign id name value line => cases hChoices
          | false =>
              simp only [Bool.not_false, if_true, ends_bind,
                ends_modify]
              -- The place is passed before the part is run.
              have hPassed :=
                hState.withPosition
                  ⟨s.location, s.status, f.past :: fs,
                    s.offers⟩
              refine (execute_ends hSound
                (hCoherent.leaf_mem hAt) hChoices hPassed
                hReady).mono ?_ ?_
              · rintro r s' ⟨hState', hFollows, hPrompt⟩
                exact ⟨⟨hState', hFollows.moves hAt hChoices⟩,
                  hPrompt⟩
              · rintro e s' ⟨hState', hPosition, hForeseen⟩
                refine ⟨⟨hState', [.ran i.id], ?_⟩,
                  (congrArg Position.status hPosition).trans
                    hReady, hForeseen⟩
                rw [hPosition]
                exact Position.Moves.pass f fs i hAt hChoices

end BranchingStory
