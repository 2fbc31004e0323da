import BranchingStory.Proofs.Fallbacks
import BranchingStory.Proofs.Listening
import BranchingStory.Proofs.Offering
import BranchingStory.Proofs.Outcomes
import BranchingStory.Proofs.Restored

/-
  This file follows a story up to a set of choices, and past
  it.  The player is asked exactly for the branches that can be
  taken on arrival, and to choose one of them later enters that
  branch, whatever was asked in between.  Where no branch can be
  listed the fallback is taken, and without one the story has
  run out of choices.

  Key definitions include:
    * `State.Walks`
    * `State.Lingers`

  Key theorems include:
    * `State.Walks.follow_eq`
    * `step_eq_arriveAt`
    * `State.Lingers.waitsAlike`
    * `choose_presented`
    * `choice_sets_are_decided`
-/

------------------------------------------------------------
-- Walks
------------------------------------------------------------

namespace BranchingStory

open Play

/-
  Whether a story that goes on walks from one state to another
  in so many steps, with these lines and without a prompt.
-/
inductive State.Walks
    (o : Outline) :
    State → Nat → List RenderedLine → State → Prop where
  | stay
      {s : State}
      (hReady : s.status = .ready) :
      Walks o s 0 [] s
  | step
      {s s₁ s₂ : State}
      {r : Progress}
      {n : Nat}
      {ls : List RenderedLine}
      (hReady : s.status = .ready)
      (hStep : (step o).runFrom s = (.ok r, s₁))
      (hSilent : r.prompt = none)
      (hThen : Walks o s₁ n ls s₂) :
      Walks o s (n + 1) (r.line.toList ++ ls) s₂

namespace State.Walks

variable {o : Outline}
variable {s s₁ s₂ : State}
variable {n : Nat}
variable {ls : List RenderedLine}

/- A walk ends where the story can go on. -/
theorem ready
    (hWalks : s.Walks o n ls s₁) :
    s₁.status = .ready := by
  induction hWalks with
  | stay hReady => exact hReady
  | step hReady hStep hSilent hThen ih => exact ih

/- A walk begins where the story can go on. -/
theorem ready_start
    (hWalks : s.Walks o n ls s₁) :
    s.status = .ready := by
  cases hWalks with
  | stay hReady => exact hReady
  | step hReady hStep hSilent hThen => exact hReady

/- A walk leads from a state that fits to one that fits. -/
theorem fits
    (hSound : o.IsSound)
    (hWalks : s.Walks o n ls s₁)
    (hFits : s.Fits o) :
    s₁.Fits o := by
  induction hWalks with
  | stay hReady => exact hFits
  | step hReady hStep hSilent hThen ih =>
      have hEnds :=
        (step_ends hSound hFits.sound hFits.coherent
          hReady).of_ok hStep
      exact ih (hEnds.1.fits hSound.nodup hReady hFits)

/- A further step may follow a walk. -/
theorem snoc
    (hWalks : s.Walks o n ls s₁)
    {r : Progress}
    (hStep : (BranchingStory.step o).runFrom s₁ = (.ok r, s₂))
    (hSilent : r.prompt = none)
    (hReady : s₂.status = .ready) :
    s.Walks o (n + 1) (ls ++ r.line.toList) s₂ := by
  induction hWalks with
  | stay hStart =>
      have hOne :=
        Walks.step hStart hStep hSilent (.stay hReady)
      rw [List.append_nil] at hOne
      exact hOne
  | step hStart hFirst hQuiet hThen ih =>
      rw [List.append_assoc]
      exact .step hStart hFirst hQuiet (ih hStep)

/-
  To follow a story that walks to a state is to follow it from
  there, with the lines of the walk ahead.
-/
theorem follow_eq
    (hWalks : s.Walks o n ls s₁)
    (m : Nat) :
    (follow o (n + m)).runFrom s =
      match (follow o m).runFrom s₁ with
      | (.ok r, s') => (.ok (ls ++ r.1, r.2), s')
      | (.error e, s') => (.error e, s') := by
  induction hWalks with
  | stay hReady =>
      rw [Nat.zero_add]
      rcases (follow o m).runFrom _ with ⟨e | r, s'⟩ <;> rfl
  | @step s s₁ s₂ r n ls hReady hStep hSilent hThen ih =>
      rw [Nat.add_right_comm, follow, runFrom_bind, hStep]
      simp only [hSilent]
      rw [runFrom_bind, ih]
      rcases (follow o m).runFrom s₂ with ⟨e | r', s'⟩
      · rfl
      · simp [List.append_assoc]

end State.Walks

/- The lines of a walk and where it ends, found step by step. -/
def State.walk?
    (o : Outline) :
    Nat → State → Option (List RenderedLine × State)
  | 0, s => if s.status = .ready then some ([], s) else none
  | n + 1, s =>
      if s.status = .ready then
        match (step o).runFrom s with
        | (.ok ⟨line, none⟩, s') =>
            (walk? o n s').map fun r =>
              (line.toList ++ r.1, r.2)
        | _ => none
      else none

/- A walk that is found step by step is one. -/
theorem State.walks_of_walk?
    {o : Outline}
    {n : Nat}
    {s s' : State}
    {ls : List RenderedLine}
    (hWalk : s.walk? o n = some (ls, s')) :
    s.Walks o n ls s' := by
  induction n generalizing s ls with
  | zero =>
      rw [walk?] at hWalk
      split at hWalk
      · next hReady =>
          cases hWalk
          exact .stay hReady
      · cases hWalk
  | succ n ih =>
      rw [walk?] at hWalk
      split at hWalk
      · next hReady =>
          split at hWalk
          · next line s₁ hStep =>
              rcases Option.map_eq_some_iff.mp hWalk with
                ⟨⟨ls', s''⟩, hRest, hSame⟩
              cases hSame
              exact .step hReady hStep rfl (ih hRest)
          · cases hWalk
      · cases hWalk

end BranchingStory

------------------------------------------------------------
-- Steps At A Set Of Choices
------------------------------------------------------------

namespace BranchingStory

open Play

variable {o : Outline}
variable {s s' : State}
variable {f : Frame}
variable {fs : List Frame}
variable {id depth line : Nat}
variable {branches : List Branch}

/- A story stands at what comes next in its block. -/
theorem Position.isAt_of_next?
    {p : Position}
    {i : Item}
    (hFrames : p.frames = f :: fs)
    (hNext : p.next? o = some i) :
    p.IsAt o f fs i := by
  refine ⟨hFrames, ?_⟩
  rw [next?, hFrames] at hNext
  exact Option.bind_eq_some_iff.mp hNext

/- A step at a set of choices is to arrive there. -/
theorem step_eq_arriveAt
    (hCoherent : s.position.IsCoherent o)
    (hAt : s.position.IsAt o f fs
      (.choices id depth line branches)) :
    (step o).runFrom s =
      (arriveAt line branches).runFrom s := by
  rcases hCoherent.index_lt hAt with
    ⟨items, hBlock, hNatural, hBound, _⟩
  rcases itemAt_eq hNatural hBound with ⟨i, _, hItem, hItemAt⟩
  rcases hAt with ⟨hFrames, items', hBlock', hItem'⟩
  rw [hBlock] at hBlock'
  cases hBlock'
  rw [hItem] at hItem'
  cases hItem'
  have hFrames' : s.frames = f :: fs := hFrames
  unfold step
  rw [runFrom_bind, runFrom_get]
  simp only [hFrames', hBlock]
  rw [if_neg (Int.not_le.mpr hBound), hItemAt, pure_bind]
  rfl

/- A story that is asked goes on as it is followed. -/
theorem resume_eq_follow
    (hReady : s.status = .ready)
    (steps : Nat) :
    (resume o steps).runFrom s =
      match (follow o steps).runFrom s with
      | (.ok r, s') => (.ok (joinLines r.1, r.2), s')
      | (.error e, s') => (.error e, s') := by
  unfold resume
  rw [runFrom_bind, runFrom_get]
  simp only [hReady]
  rw [runFrom_bind]
  rcases (follow o steps).runFrom s with ⟨e | r, s'⟩ <;> rfl

variable {n steps : Nat}
variable {ls : List RenderedLine}

/- A story that walks to where it is asked is asked that. -/
theorem resume_of_prompt
    (hWalks : s.Walks o n ls s')
    (hSteps : n < steps)
    {prompt : Prompt}
    {s'' : State}
    (hStep :
      (step o).runFrom s' = (.ok ⟨none, some prompt⟩, s'')) :
    (resume o steps).runFrom s =
      (.ok (joinLines ls, prompt), s'') := by
  rcases Nat.exists_eq_add_of_lt hSteps with ⟨m, rfl⟩
  rw [resume_eq_follow hWalks.ready_start, Nat.add_assoc,
    hWalks.follow_eq, follow, runFrom_bind, hStep]
  simp

/- A story that walks to where it is stopped is stopped. -/
theorem resume_of_fault
    (hWalks : s.Walks o n ls s')
    (hSteps : n < steps)
    {e : PlayError}
    {s'' : State}
    (hStep : (step o).runFrom s' = (.error e, s'')) :
    (resume o steps).runFrom s = (.error e, s'') := by
  rcases Nat.exists_eq_add_of_lt hSteps with ⟨m, rfl⟩
  rw [resume_eq_follow hWalks.ready_start, Nat.add_assoc,
    hWalks.follow_eq, follow, runFrom_bind, hStep]

end BranchingStory

------------------------------------------------------------
-- Waiting For A Choice
------------------------------------------------------------

namespace BranchingStory

open Play

variable {o : Outline}
variable {s s' : State}

/-
  Whether a story that was waiting for a choice still waits for
  it after requests, met or refused, and after it was restored
  from its own saves.
-/
inductive State.Lingers
    (o : Outline)
    (s : State) : State → Prop where
  | stay : Lingers o s s
  | request
      {s' : State}
      (r : StoryRequest)
      (hFrom : Lingers o s s')
      (hWaits :
        ((r.action o).runFrom s').2.status = .presenting) :
      Lingers o s ((r.action o).runFrom s').2
  | restore
      {s' s'' : State}
      (savedAt : String)
      (hFrom : Lingers o s s')
      (hRestored : restore o (s'.save savedAt) = .ok s'') :
      Lingers o s s''

/-
  Whether a story waits where it waited before, with the same
  offers and the same choices taken.
-/
structure State.WaitsAlike
    (s s' : State) : Prop where
  position : s'.position = s.position
  chosen : s'.chosen = s.chosen

/- A story waits as it does. -/
theorem State.WaitsAlike.refl
    (s : State) :
    s.WaitsAlike s :=
  ⟨rfl, rfl⟩

/- To choose makes a story go on, or leaves it waiting. -/
theorem choose_waits
    (hSound : o.IsSound)
    (hFits : s.Fits o)
    (index : Int) :
    Ends (choose index) s
      (fun _ s' => s'.status = .ready)
      (fun _ s' => s' = s) := by
  refine (choose_ends hSound index hFits).mono ?_
    fun _ _ hFault => hFault.1
  rintro _ s' ⟨_, f, fs, id, depth, line, branches, b, _, _,
    hPosition⟩
  exact congrArg Position.status hPosition

/- The same of moving it. -/
theorem moveTo_waits
    (o : Outline)
    (knot : String)
    (stitch : Option String)
    (s : State) :
    Ends (moveTo o knot stitch) s
      (fun _ s' => s'.status = .ready)
      (fun _ s' => s' = s) := by
  unfold moveTo
  split
  · exact rfl
  · exact rfl

/- To set a variable leaves a story where it is. -/
theorem setVariable_waits
    (o : Outline)
    (name : String)
    (given : Given)
    (s : State) :
    Ends (setVariable o name given) s
      (fun _ s' => s.WaitsAlike s')
      (fun _ s' => s.WaitsAlike s') := by
  unfold setVariable
  split
  · exact .refl s
  · split
    · exact .refl s
    · split
      · exact .refl s
      · exact ⟨rfl, rfl⟩

/- A request after which a story still waits keeps it there. -/
theorem request_waits
    (hSound : o.IsSound)
    (hFits : s.Fits o)
    (hStatus : s.status = .presenting)
    (r : StoryRequest)
    (hWaits :
      ((r.action o).runFrom s).2.status = .presenting) :
    s.WaitsAlike ((r.action o).runFrom s).2 := by
  -- What would have made the story go on was refused.
  have hRefused
      {p : Play Unit}
      (hEnds : Ends p s (fun _ s' => s'.status = .ready)
        (fun _ s' => s' = s))
      (hStill : (p.runFrom s).2.status = .presenting) :
      s.WaitsAlike (p.runFrom s).2 := by
    cases hRun : p.runFrom s with
    | mk x s' =>
        rw [hRun] at hStill
        cases x with
        | ok u =>
            rw [hEnds.of_ok hRun] at hStill
            cases hStill
        | error e =>
            rw [hEnds.of_error hRun]
            exact .refl s
  have hLookUp
      (hKind : (StoryCall.request r).isLookUp = true) :
      s.WaitsAlike ((r.action o).runFrom s).2 := by
    have hState := (StoryRequest.lookUp_ends (o := o) hKind s).mono
      (fun _ _ hBoth => hBoth.1) fun _ _ hFault => hFault
    rw [hState.state]
    exact .refl s
  cases r with
  | resume steps =>
      have hPending : (resume o steps).runFrom s =
          (.error .choicePending, s) := by
        unfold resume
        rw [runFrom_bind, runFrom_get]
        simp only [hStatus]
        rfl
      rw [StoryRequest.action, state_bind_pure, hPending]
      exact .refl s
  | choose index =>
      rw [StoryRequest.action, state_bind_pure] at hWaits ⊢
      exact hRefused (choose_waits hSound hFits index) hWaits
  | moveTo knot stitch =>
      rw [StoryRequest.action, state_bind_pure] at hWaits ⊢
      exact hRefused (moveTo_waits o knot stitch s) hWaits
  | setVariable name given =>
      rw [StoryRequest.action, state_bind_pure]
      exact (setVariable_waits o name given s).state
  | _ => exact hLookUp rfl

namespace State.Lingers

/- Where a story lingers is where it can come to. -/
theorem reachable
    (hReachable : Reachable o s)
    (hLingers : s.Lingers o s') :
    Reachable o s' := by
  induction hLingers with
  | stay => exact hReachable
  | @request s' r hFrom hWaits ih =>
      have hNext :=
        StoryCall.serve_reachable (t := ⟨s', []⟩) ih
          (.request r)
      rw [StoryCall.serve_state] at hNext
      exact hNext
  | restore savedAt hFrom hRestored ih =>
      exact ih.restore savedAt hRestored

/- A story that lingers waits as it did. -/
theorem waitsAlike
    (hSound : o.IsSound)
    (hReachable : Reachable o s)
    (hStatus : s.status = .presenting)
    (hLingers : s.Lingers o s') :
    s.WaitsAlike s' := by
  induction hLingers with
  | stay => exact .refl s
  | @request s' r hFrom hWaits ih =>
      have hFits := (hFrom.reachable hReachable).fits hSound
      have hStatus' : s'.status = .presenting :=
        (congrArg Position.status ih.position).trans hStatus
      have hNext :=
        request_waits hSound hFits hStatus' r hWaits
      exact ⟨hNext.position.trans ih.position,
        hNext.chosen.trans ih.chosen⟩
  | restore savedAt hFrom hRestored ih =>
      have hFits := (hFrom.reachable hReachable).fits hSound
      have hSame :=
        (State.restore_save_recovers hSound
          (hFits.isSavable hSound) savedAt).only _ hRestored
      rw [hSame]
      exact ih

end State.Lingers

end BranchingStory

------------------------------------------------------------
-- Outcomes
------------------------------------------------------------

namespace BranchingStory

open Play

variable {o : Outline}
variable {s s' : State}
variable {f : Frame}
variable {fs : List Frame}
variable {id depth line : Nat}
variable {branches : List Branch}

/-
  To choose among the branches that are presented enters the
  branch in that place, however long the story waited.
-/
theorem choose_presented
    (hSound : o.IsSound)
    {offers : List Offer}
    (hPresents : s.Presents branches offers s')
    (hFrames : s.frames = f :: fs)
    (hReachable : Reachable o s')
    {later : State}
    (hLingers : s'.Lingers o later)
    {i : Nat}
    {b : Branch}
    (hListed : (s.listed branches)[i]? = some b) :
    (choose i).runFrom later =
      (.ok (), { later.taking b f fs with
        offers := []
        status := .ready }) := by
  rcases hPresents with
    ⟨s₁, ⟨g, cursors, orders, rfl⟩, hOffers, rfl⟩
  have hAlike := hLingers.waitsAlike hSound hReachable rfl
  have hStatus : later.status = .presenting :=
    congrArg Position.status hAlike.position
  have hFrames' : later.frames = f :: fs :=
    (congrArg Position.frames hAlike.position).trans hFrames
  have hSame : later.offers = offers :=
    congrArg Position.offers hAlike.position
  rcases List.getElem?_eq_some_iff.mp hListed with
    ⟨hBound, hBranch⟩
  have hBound' : i < offers.length :=
    hOffers.length_eq ▸ hBound
  have hOf := hOffers.get hBound hBound'
  have hOffer : later.offers[i]? = some offers[i] := by
    rw [hSame]
    exact List.getElem?_eq_getElem hBound'
  have hLeads : offers[i].branch = b.id := by
    rw [← hBranch]
    exact hOf.1
  rw [runFrom_choose_offer hStatus hFrames' hOffer, hLeads]
  rfl

/- A set has but one fallback that can be taken. -/
theorem find?_fallback_eq
    (hSingle :
      (Item.choices id depth line branches).fallbacks.length ≤ 1)
    {b c : Branch}
    (hListed : s.listed branches = [])
    (hEligible : b ∈ s.eligible branches)
    (hFound : branches.find? (Branch.isEligibleFallback s) =
      some c) :
    c = b := by
  rcases List.mem_filter.mp hEligible with ⟨hBranch, _⟩
  have hFallback : b.choice.fallback = true := by
    rw [State.listed, List.filter_eq_nil_iff] at hListed
    simpa using hListed b hEligible
  have hFallback' : c.choice.fallback = true := by
    have hBoth := List.find?_some hFound
    rw [Branch.isEligibleFallback, Bool.and_eq_true] at hBoth
    exact hBoth.1
  have hMem :
      b ∈ (Item.choices id depth line branches).fallbacks :=
    List.mem_filter.mpr ⟨hBranch, hFallback⟩
  have hMem' :
      c ∈ (Item.choices id depth line branches).fallbacks :=
    List.mem_filter.mpr
      ⟨List.mem_of_find?_eq_some hFound, hFallback'⟩
  rcases hAll :
      (Item.choices id depth line branches).fallbacks with
    _ | ⟨d, _ | ⟨d', rest⟩⟩
  · rw [hAll] at hMem
    cases hMem
  · rw [hAll, List.mem_singleton] at hMem hMem'
    exact hMem'.trans hMem.symm
  · rw [hAll] at hSingle
    simp at hSingle

/-
  Whether nothing is raised while the branches of a set are
  looked through: no condition fails, and neither does what is
  displayed of a choice.
-/
def State.IsQuietAt
    (line : Nat)
    (branches : List Branch)
    (s : State) : Prop :=
  ∀ e s', (arriveAt line branches).runFrom s = (.error e, s') →
    e.isRaised = false

namespace State.IsQuietAt

variable (hQuiet : s.IsQuietAt line branches)
variable (hPlayable : ∀ b ∈ branches, b.IsPlayable o)
variable (hFrames : s.frames = f :: fs)

include hQuiet hPlayable hFrames

/- Without a fault, what is listed is presented. -/
theorem presents
    (hListed : s.listed branches ≠ []) :
    ∃ offers asked, s.Presents branches offers asked ∧
      (arriveAt line branches).runFrom s =
        (.ok ⟨none, some (.choices offers)⟩, asked) := by
  have hDecides := arriveAt_decides hPlayable hFrames line
  rcases hRun : (arriveAt line branches).runFrom s with
    ⟨e | r, asked⟩
  · rcases hDecides.of_error hRun with hRaised | ⟨hNone, _, _⟩
    · rw [hQuiet e asked hRun] at hRaised
      cases hRaised
    · rw [State.listed, hNone] at hListed
      exact absurd rfl hListed
  · rcases hDecides.of_ok hRun with
      ⟨_, offers, hPresents, rfl⟩ | ⟨hNone, _⟩
    · exact ⟨offers, asked, hPresents, rfl⟩
    · exact absurd hNone hListed

/- Without a fault, the fallback is taken if that is all. -/
theorem takesFallback
    (hSingle :
      (Item.choices id depth line branches).fallbacks.length ≤ 1)
    (hNone : s.listed branches = [])
    {b : Branch}
    (hEligible : b ∈ s.eligible branches) :
    (arriveAt line branches).runFrom s =
      (.ok .silent, s.taking b f fs) := by
  have hDecides := arriveAt_decides hPlayable hFrames line
  rcases hRun : (arriveAt line branches).runFrom s with
    ⟨e | r, s₁⟩
  · rcases hDecides.of_error hRun with hRaised | ⟨hNil, _, _⟩
    · rw [hQuiet e s₁ hRun] at hRaised
      cases hRaised
    · rw [hNil] at hEligible
      cases hEligible
  · rcases hDecides.of_ok hRun with
      ⟨hListed, _⟩ | ⟨_, c, hFound, rfl, rfl⟩
    · exact absurd hNone hListed
    · cases find?_fallback_eq hSingle hNone hEligible hFound
      rfl

/- Without a fault, nothing is left if nothing can be taken. -/
theorem runsOut
    (hNil : s.eligible branches = []) :
    (arriveAt line branches).runFrom s =
      (.error (.outOfChoices s.location line), s) := by
  have hDecides := arriveAt_decides hPlayable hFrames line
  rcases hRun : (arriveAt line branches).runFrom s with
    ⟨e | r, s₁⟩
  · rcases hDecides.of_error hRun with hRaised | ⟨_, rfl, rfl⟩
    · rw [hQuiet e s₁ hRun] at hRaised
      cases hRaised
    · rfl
  · rcases hDecides.of_ok hRun with
      ⟨hListed, _⟩ | ⟨_, c, hFound, _⟩
    · rw [State.listed, hNil] at hListed
      exact absurd rfl hListed
    · have hBoth := List.find?_some hFound
      rw [Branch.isEligibleFallback, Bool.and_eq_true] at hBoth
      have hMem : c ∈ s.eligible branches :=
        List.mem_filter.mpr
          ⟨List.mem_of_find?_eq_some hFound, hBoth.2⟩
      rw [hNil] at hMem
      cases hMem

end State.IsQuietAt

/-
  What a story comes to at a set of choices, wherever it can
  come to in a script that can be read, if nothing is raised
  while the branches are looked through.  The branches that can
  be taken are settled on arrival: whether one can be does not
  depend on anything that rendering changes, and rendering a
  choice changes nothing else.  If any of them is no fallback,
  the prompt lists exactly those, in their order, and to choose
  one by its place enters exactly that branch, as long as the
  story waits.  If only a fallback can be taken, the story goes
  on there and counts it.  If no branch can be taken, the story
  has run out of choices and stays as it is.
-/
theorem choice_sets_are_decided
    {source : String}
    {story : Story}
    (hRead : Story.read source = .ok story)
    (hReachable : Reachable story.outline s)
    {n : Nat}
    {ls : List RenderedLine}
    (hWalks : s.Walks story.outline n ls s')
    (hAt : s'.position.IsAt story.outline f fs
      (.choices id depth line branches))
    (hQuiet : s'.IsQuietAt line branches) :
    (∀ s₁, s'.Passes s₁ → ∀ b ∈ branches,
      b.isEligible s₁ = b.isEligible s' ∧
        s₁.Passes
          ((render b.choice.display.fragments).runFrom s₁).2) ∧
    (s'.listed branches ≠ [] → ∃ offers asked,
      s'.Presents branches offers asked ∧
      (∀ steps, n < steps →
        (resume story.outline steps).runFrom s =
          (.ok (joinLines ls, .choices offers), asked)) ∧
      ∀ later, asked.Lingers story.outline later →
        ∀ i b, (s'.listed branches)[i]? = some b →
          (choose (i : Nat)).runFrom later =
            (.ok (), { later.taking b f fs with
              offers := []
              status := .ready })) ∧
    (s'.listed branches = [] → ∀ b ∈ s'.eligible branches,
      s.Walks story.outline (n + 1) ls (s'.taking b f fs)) ∧
    (s'.eligible branches = [] → ∀ steps, n < steps →
      (resume story.outline steps).runFrom s =
        (.error (.outOfChoices s'.location line), s')) := by
  have hSound := Story.isSound_of_read hRead
  have hFits' := hWalks.fits hSound (hReachable.fits hSound)
  have hPlayable : ∀ b ∈ branches, b.IsPlayable story.outline :=
    fun b hBranch => hFits'.coherent.isPlayable hAt hBranch
  have hStep := step_eq_arriveAt hFits'.coherent hAt
  refine ⟨?_, ?_, ?_, ?_⟩
  · intro s₁ hPasses b hBranch
    exact ⟨b.isEligible_passes hPasses,
      (render_shows (l := b.choice.display)
        (hPlayable b hBranch) List.mem_cons_self s₁).passes⟩
  · intro hListed
    rcases hQuiet.presents hPlayable hAt.1 hListed with
      ⟨offers, asked, hPresents, hRun⟩
    have hAsked (steps : Nat) (hSteps : n < steps) :
        (resume story.outline steps).runFrom s =
          (.ok (joinLines ls, .choices offers), asked) :=
      resume_of_prompt hWalks hSteps (hStep.trans hRun)
    have hNext := hReachable.resume (n + 1)
    rw [hAsked (n + 1) (Nat.lt_succ_self n)] at hNext
    refine ⟨offers, asked, hPresents, hAsked, ?_⟩
    intro later hLingers i b hItem
    exact choose_presented hSound hPresents hAt.1 hNext hLingers
      hItem
  · intro hNone b hEligible
    have hSingle := Story.length_fallbacks_le_one hRead
      (hFits'.coherent.mem_parts hAt)
    have hRun := hQuiet.takesFallback hPlayable hAt.1 hSingle
      hNone hEligible
    have hNext :=
      hWalks.snoc (hStep.trans hRun) rfl hWalks.ready
    rw [Progress.silent, Option.toList_none, List.append_nil]
      at hNext
    exact hNext
  · intro hNil steps hSteps
    have hRun := hQuiet.runsOut hPlayable hAt.1 hNil
    exact resume_of_fault hWalks hSteps (hStep.trans hRun)

/- A script of a line and a set of four choices. -/
def filteringScript : String :=
  "VAR n = 1\nOnce.\n* \x7bn < 1\x7d One\n* Two\n" ++
    "+ \x7bn > 0\x7d Three\n* ->\n"

/-
  What is looked for in the story of the script: after two
  steps it has told its line and stands at the set, where two
  branches are listed and nothing is raised.
-/
def arrivesFiltered
    (o : Outline) : Bool :=
  match (State.start o 0).walk? o 2 with
  | some (ls, s) =>
      match s.frames, s.position.next? o with
      | _ :: _, some (.choices _ _ line branches) =>
          ls = [⟨"Once.", false, false, []⟩] &&
            (s.listed branches).map Branch.id = [6, 8] &&
              match ((arriveAt line branches).runFrom s).1 with
              | .ok _ => true
              | .error e => !e.isRaised
      | _, _ => false
  | none => false

/-
  Of the choices of the script, the second and the third are
  listed after the line, and to choose the latter of the two
  enters the third.
-/
theorem choice_sets_are_decided_filtered :
    ∃ story s' f fs id depth line branches offers asked,
      Story.read filteringScript = .ok story ∧
      (State.start story.outline 0).Walks story.outline 2
        [⟨"Once.", false, false, []⟩] s' ∧
      s'.position.IsAt story.outline f fs
        (.choices id depth line branches) ∧
      (s'.listed branches).map Branch.id = [6, 8] ∧
      (resume story.outline 9).runFrom
          (.start story.outline 0) =
        (.ok ([⟨"Once.\n", []⟩], .choices offers), asked) ∧
      ((choose (1 : Nat)).runFrom asked).2.frames =
        Position.framesInto 8 f fs := by
  have hCheck :
      ((Story.read filteringScript).toOption.any fun story =>
        arrivesFiltered story.outline) = true := by
    decide +kernel
  rcases exists_ok_of_any hCheck with ⟨story, hRead, hArrives⟩
  rw [arrivesFiltered] at hArrives
  split at hArrives
  · next ls s' hWalk =>
      split at hArrives
      · next f fs id depth line branches hFrames hNext =>
          simp only [Bool.and_eq_true, decide_eq_true_eq]
            at hArrives
          rcases hArrives with ⟨⟨rfl, hIds⟩, hFault⟩
          have hWalks := State.walks_of_walk? hWalk
          have hAt := Position.isAt_of_next? hFrames hNext
          have hQuiet : s'.IsQuietAt line branches := by
            intro e s₁ hRun
            rw [hRun] at hFault
            simpa using hFault
          rcases (choice_sets_are_decided hRead (.start 0)
            hWalks hAt hQuiet).2.1 (by
              intro hNone
              rw [hNone] at hIds
              cases hIds) with
            ⟨offers, asked, _, hAsked, hChoose⟩
          refine ⟨story, s', f, fs, id, depth, line, branches,
            offers, asked, hRead, hWalks, hAt, hIds,
            hAsked 9 (by decide), ?_⟩
          rcases List.map_eq_cons_iff.mp hIds with
            ⟨b, bs, hListed, _, hRest⟩
          rcases List.map_eq_cons_iff.mp hRest with
            ⟨c, cs, rfl, hThird, _⟩
          have hChosen := hChoose asked .stay 1 c (by
            rw [hListed]
            rfl)
          rw [hChosen, ← hThird]
          rfl
      · cases hArrives
  · cases hArrives

end BranchingStory
