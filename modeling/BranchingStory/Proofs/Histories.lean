import BranchingStory.Proofs.Changes
import BranchingStory.Proofs.RoundTrip

/-
  This file tells the history of a state: all that has
  happened since the start of the story, whatever has been
  asked of it.  A history unfolds turn by turn, and each turn
  changes the state in one of a few ways.

  Key definitions include:
    * `followHistory`
    * `resumeHistory`
    * `History`
    * `waiting`
    * `arrivals`
    * `State.Turns`
    * `Unfolds`

  Key theorems include:
    * `reachable_iff_history`
    * `follow_unfolds`
    * `mem_resumeHistory`
    * `History.unfolds`
-/

------------------------------------------------------------
-- Histories
------------------------------------------------------------

namespace BranchingStory

/-
  What happens while a story is followed in at most as many
  steps as given.
-/
def followHistory
    (o : Outline) : Nat → State → List Happening
  | 0, _ => [.cut]
  | n + 1, s =>
      stepHistory o s ++
        match (step o).runFrom s with
        | (.error _, _) => []
        | (.ok r, s') =>
            if r.prompt.isSome then [] else followHistory o n s'

/- What happens when a story is asked to go on. -/
def resumeHistory
    (o : Outline)
    (steps : Nat)
    (s : State) : List Happening :=
  if s.status = .ready then
    .resumed :: followHistory o steps s
  else []

/- What happens when a choice is made, if it can be made. -/
def chooseHistory
    (index : Int)
    (s : State) : List Happening :=
  match ((choose index).runFrom s).1 with
  | .error _ => []
  | .ok _ =>
      s.offers[index.toNat]?.toList.map fun x => .took x.branch

/- What happens when a story is moved, if it can be moved. -/
def moveHistory
    (o : Outline)
    (knot : String)
    (stitch : Option String) : List Happening :=
  match findLocation o knot stitch with
  | .error _ => []
  | .ok a => [.moved a]

/-
  Whether a state is one that a story comes to after all that
  has happened to it, from its start on.  A state that is
  restored has the history of the one that was saved.
-/
inductive History
    (o : Outline) : List Happening → State → Prop where
  | start (seed : Int) : History o [] (State.start o seed)
  | resume
      {h : List Happening}
      {s : State}
      (steps : Nat)
      (hFrom : History o h s) :
      History o (h ++ resumeHistory o steps s)
        ((resume o steps).runFrom s).2
  | choose
      {h : List Happening}
      {s : State}
      (index : Int)
      (hFrom : History o h s) :
      History o (h ++ chooseHistory index s)
        ((choose index).runFrom s).2
  | moveTo
      {h : List Happening}
      {s : State}
      (knot : String)
      (stitch : Option String)
      (hFrom : History o h s) :
      History o (h ++ moveHistory o knot stitch)
        ((moveTo o knot stitch).runFrom s).2
  | setVariable
      {h : List Happening}
      {s : State}
      (name : String)
      (given : Given)
      (hFrom : History o h s) :
      History o h ((setVariable o name given).runFrom s).2
  | restore
      {h : List Happening}
      {s s' : State}
      (savedAt : String)
      (hFrom : History o h s)
      (hRestored : restore o (s.save savedAt) = .ok s') :
      History o h s'

variable {o : Outline}
variable {h : List Happening}
variable {s : State}

/- Every state that a story can come to has a history. -/
theorem Reachable.history
    (hReachable : Reachable o s) :
    ∃ h, History o h s := by
  induction hReachable with
  | start seed => exact ⟨_, History.start seed⟩
  | resume steps hFrom ih =>
      rcases ih with ⟨h, hHistory⟩
      exact ⟨_, hHistory.resume steps⟩
  | choose index hFrom ih =>
      rcases ih with ⟨h, hHistory⟩
      exact ⟨_, hHistory.choose index⟩
  | moveTo knot stitch hFrom ih =>
      rcases ih with ⟨h, hHistory⟩
      exact ⟨_, hHistory.moveTo knot stitch⟩
  | setVariable name given hFrom ih =>
      rcases ih with ⟨h, hHistory⟩
      exact ⟨_, hHistory.setVariable name given⟩
  | restore savedAt hFrom hRestored ih =>
      rcases ih with ⟨h, hHistory⟩
      exact ⟨_, hHistory.restore savedAt hRestored⟩

/- A state with a history is one that the story can come to. -/
theorem History.reachable
    (hHistory : History o h s) :
    Reachable o s := by
  induction hHistory with
  | start seed => exact Reachable.start seed
  | resume steps hFrom ih => exact ih.resume steps
  | choose index hFrom ih => exact ih.choose index
  | moveTo knot stitch hFrom ih => exact ih.moveTo knot stitch
  | setVariable name given hFrom ih =>
      exact ih.setVariable name given
  | restore savedAt hFrom hRestored ih =>
      exact ih.restore savedAt hRestored

/- The states that have a history are those come to. -/
theorem reachable_iff_history :
    Reachable o s ↔ ∃ h, History o h s := by
  constructor
  · intro hReachable
    exact hReachable.history
  · rintro ⟨h, hHistory⟩
    exact hHistory.reachable

end BranchingStory

------------------------------------------------------------
-- Arrivals
------------------------------------------------------------

namespace BranchingStory

/-
  The place that waits for the story to go on there, after it
  has been moved from outside.
-/
def waiting :
    Option Address → List Happening → Option Address
  | a?, [] => a?
  | _, .moved a :: h => waiting (some a) h
  | _, .resumed :: h => waiting none h
  | a?, _ :: h => waiting a? h

/-
  The places that the story arrives at, one after the other:
  where it goes on after having been moved, and where the
  diverts lead that it follows.
-/
def arrivals :
    Option Address → List Happening → List Address
  | _, [] => []
  | _, .moved a :: h => arrivals (some a) h
  | a?, .resumed :: h => a?.toList ++ arrivals none h
  | a?, .diverted a :: h => a :: arrivals a? h
  | a?, _ :: h => arrivals a? h

/- What waits after one history and a further one. -/
theorem waiting_append
    (h h' : List Happening)
    (a? : Option Address) :
    waiting a? (h ++ h') = waiting (waiting a? h) h' := by
  induction h generalizing a? with
  | nil => rfl
  | cons x h ih => cases x <;> exact ih _

/- The arrivals of one history and a further one. -/
theorem arrivals_append
    (h h' : List Happening)
    (a? : Option Address) :
    arrivals a? (h ++ h') =
      arrivals a? h ++ arrivals (waiting a? h) h' := by
  induction h generalizing a? with
  | nil => rfl
  | cons x h ih =>
      cases x with
      | resumed =>
          change a?.toList ++ arrivals none (h ++ h') = _
          rw [ih, ← List.append_assoc]
          rfl
      | moved a => exact ih _
      | cut => exact ih _
      | diverted a => exact congrArg (a :: ·) (ih _)
      | took branch => exact ih _
      | showed x => exact ih _

end BranchingStory

------------------------------------------------------------
-- Turns
------------------------------------------------------------

namespace BranchingStory

/-
  Whether nothing is left to be entered unless it waits: the
  story has gone on until a prompt or a fault, or is moved.
-/
def IsSettled
    (o : Outline)
    (h : List Happening)
    (s : State) : Prop :=
  .cut ∈ h ∨ s.status ≠ .ready ∨ s.frames ≠ [] ∨
    waiting (some o.start) h ≠ none

/-
  How a state changes in one turn of its history, and what
  happens then: the story begins to go on, makes a step or is
  cut short; a choice is made; the story is moved; a variable
  that is no constant is set.
-/
inductive State.Turns
    (o : Outline)
    (h : List Happening)
    (s : State) : List Happening → State → Prop where
  | begin
      (hReady : s.status = .ready) :
      Turns o h s [.resumed] s
  | step
      (new : List Happening)
      (s' : State)
      (hReady : s.status = .ready)
      (hWaiting : waiting (some o.start) h = none)
      (hChanges : s.Changes o new s') :
      Turns o h s new s'
  | cut : Turns o h s [.cut] s
  | choose
      (x : Offer)
      (f : Frame)
      (fs : List Frame)
      (hOffer : x ∈ s.offers)
      (hPresenting : s.status = .presenting)
      (hFrames : s.frames = f :: fs) :
      Turns o h s [.took x.branch]
        { s.countChosen x.branch with
          frames := Position.framesInto x.branch f fs
          offers := []
          status := .ready }
  | move
      (a : Address)
      (hSettled : IsSettled o h s) :
      Turns o h s [.moved a]
        { s with
          location := a
          frames := []
          offers := []
          status := .ready }
  | assign
      (name : String)
      (d : Declaration)
      (v : Value)
      (hLookup : o.vars.lookup name = some d)
      (hVariable : d.constant = false) :
      Turns o h s [] (s.setVariable name v)

/- Whether a history unfolds turn by turn up to a state. -/
inductive Unfolds
    (o : Outline) : List Happening → State → Prop where
  | start (seed : Int) : Unfolds o [] (State.start o seed)
  | turn
      {h new : List Happening}
      {s s' : State}
      (hUnfolds : Unfolds o h s)
      (hTurns : s.Turns o h new s')
      (hFits : s'.Fits o) :
      Unfolds o (h ++ new) s'

variable {o : Outline}
variable {h new : List Happening}
variable {s s' : State}

/- What a history comes to fits the story. -/
theorem Unfolds.fits
    (hUnfolds : Unfolds o h s)
    (hSound : o.IsSound) :
    s.Fits o := by
  cases hUnfolds with
  | start seed => exact State.fits_start hSound seed
  | turn hUnfolds hTurns hFits => exact hFits

/- A turn in which nothing happens. -/
theorem Unfolds.idle
    (hUnfolds : Unfolds o h s)
    (hTurns : s.Turns o h [] s')
    (hFits : s'.Fits o) :
    Unfolds o h s' := by
  have hLater := hUnfolds.turn hTurns hFits
  rw [List.append_nil] at hLater
  exact hLater

end BranchingStory

------------------------------------------------------------
-- Unfolding
------------------------------------------------------------

namespace BranchingStory

open Play

variable {o : Outline}
variable {h new : List Happening}
variable {s s' : State}

/- Whether a happening belongs to a step of the story. -/
def Happening.isInner : Happening → Bool
  | .diverted _ => true
  | .took _ => true
  | .showed _ => true
  | _ => false

/- All that happens in a step belongs to it. -/
theorem State.Changes.isInner
    (hChanges : s.Changes o new s') :
    ∀ x ∈ new, x.isInner = true := by
  have hShowed (shown : List Showing) :
      ∀ x ∈ shown.map .showed, Happening.isInner x = true := by
    rw [List.forall_mem_map]
    exact fun _ _ => rfl
  have hLast (shown : List Showing) {y : Happening}
      (hInner : y.isInner = true) :
      ∀ x ∈ shown.map .showed ++ [y],
        Happening.isInner x = true :=
    List.forall_mem_append.mpr
      ⟨hShowed shown, List.forall_mem_singleton.mpr hInner⟩
  cases hChanges with
  | enter stitch hFrames => exact hShowed []
  | leave f g fs hFrames => exact hShowed []
  | finish f hFrames => exact hShowed []
  | pass f fs shown s' hFrames hShows => exact hShowed shown
  | divert f fs shown s₁ a hFrames hShows =>
      exact hLast shown rfl
  | conclude f fs shown s₁ hFrames hShows =>
      exact hShowed shown
  | assign f fs id name value v hFrames hLeaf =>
      exact hShowed []
  | present f fs shown s₁ offers hFrames hShows hFresh =>
      exact hShowed shown
  | take f fs shown s₁ b hFrames hShows hBranch hFresh =>
      exact hLast shown rfl
  | stick f fs shown s' hFrames hShows => exact hShowed shown

/- A step lets wait what waits. -/
theorem waiting_inner
    (hInner : ∀ x ∈ new, x.isInner = true)
    (a? : Option Address) :
    waiting a? new = a? := by
  induction new with
  | nil => rfl
  | cons x new ih =>
      rw [List.forall_mem_cons] at hInner
      cases x with
      | resumed => cases hInner.1
      | moved a => cases hInner.1
      | cut => cases hInner.1
      | diverted a => exact ih hInner.2
      | took branch => exact ih hInner.2
      | showed x => exact ih hInner.2

/-
  A step changes a state that fits into one that does, with
  what happens in it.  Without a prompt the story is still
  ready; a fault leaves it inside its stitch.
-/
theorem step_unfolds
    (hSound : o.IsSound)
    (hFits : s.Fits o)
    (hReady : s.status = .ready) :
    Ends (step o) s
      (fun r s' => s.Changes o (stepHistory o s) s' ∧
        s'.Fits o ∧ r.prompt = s'.prompt?)
      (fun _ s' => s.Changes o (stepHistory o s) s' ∧
        s'.Fits o ∧ s'.frames ≠ []) := by
  have hSteps :=
    step_ends hSound hFits.sound hFits.coherent hReady
  refine ((step_changes hFits.coherent).and hSteps).mono ?_ ?_
  · rintro r s' ⟨hChanges, hSteps', hPrompt⟩
    exact ⟨hChanges,
      hSteps'.fits hSound.nodup hReady hFits, hPrompt⟩
  · rintro e s' ⟨⟨hChanges, hInside⟩, hSteps', _⟩
    exact ⟨hChanges,
      hSteps'.fits hSound.nodup hReady hFits, hInside⟩

/-
  A story that is followed unfolds turn by turn, and it is
  settled when it stops.
-/
theorem follow_unfolds
    (hSound : o.IsSound)
    (n : Nat)
    (hUnfolds : Unfolds o h s)
    (hReady : s.status = .ready)
    (hWaiting : waiting (some o.start) h = none) :
    Unfolds o (h ++ followHistory o n s)
        ((follow o n).runFrom s).2 ∧
      IsSettled o (h ++ followHistory o n s)
        ((follow o n).runFrom s).2 := by
  induction n generalizing h s with
  | zero =>
      have hFits := hUnfolds.fits hSound
      refine ⟨hUnfolds.turn State.Turns.cut hFits, Or.inl ?_⟩
      exact List.mem_append_right h List.mem_cons_self
  | succ n ih =>
      have hEnds :=
        step_unfolds hSound (hUnfolds.fits hSound) hReady
      rw [follow, followHistory, runFrom_bind]
      unfold Ends at hEnds
      generalize (step o).runFrom s = p at hEnds ⊢
      rcases p with ⟨e | r, s'⟩
      · rcases hEnds with ⟨hChanges, hFits, hInside⟩
        rw [List.append_nil]
        refine ⟨hUnfolds.turn (State.Turns.step _ s' hReady
          hWaiting hChanges) hFits, Or.inr (Or.inr (Or.inl ?_))⟩
        exact hInside
      · rcases hEnds with ⟨hChanges, hFits, hPrompt⟩
        have hUnfolds' :=
          hUnfolds.turn (State.Turns.step _ s' hReady hWaiting
            hChanges) hFits
        cases hSome : r.prompt with
        | some prompt =>
            have hAsked : s'.status ≠ .ready := by
              intro hReady'
              rw [hSome, State.prompt?, hReady'] at hPrompt
              cases hPrompt
            simp only [hSome, Option.isSome_some, if_true,
              List.append_nil]
            exact ⟨hUnfolds', Or.inr (Or.inl hAsked)⟩
        | none =>
            have hReady' : s'.status = .ready := by
              rw [hSome] at hPrompt
              exact State.ready_of_prompt? hPrompt.symm
            have hWaiting' :
                waiting (some o.start)
                  (h ++ stepHistory o s) = none := by
              rw [waiting_append, hWaiting,
                waiting_inner hChanges.isInner]
            have hLater := ih hUnfolds' hReady' hWaiting'
            rw [List.append_assoc] at hLater
            simp only [hSome, Option.isSome_none,
              Bool.false_eq_true, if_false, state_bind_pure]
            exact hLater

/-
  What happens while a story is followed belongs to its steps,
  unless the bound on the steps cuts it short.
-/
theorem mem_followHistory
    (hSound : o.IsSound)
    (n : Nat)
    (hFits : s.Fits o)
    (hReady : s.status = .ready)
    {x : Happening}
    (hMem : x ∈ followHistory o n s) :
    x.isInner = true ∨ x = .cut ∧
      ((follow o n).runFrom s).1 = .error .stepsExhausted := by
  induction n generalizing s with
  | zero => exact Or.inr ⟨List.mem_singleton.mp hMem, rfl⟩
  | succ n ih =>
      have hEnds := step_unfolds hSound hFits hReady
      rw [follow, runFrom_bind]
      rw [followHistory, List.mem_append] at hMem
      unfold Ends at hEnds
      generalize (step o).runFrom s = p at hEnds hMem ⊢
      rcases p with ⟨e | r, s'⟩
      · rcases hMem with hMem | hMem
        · exact Or.inl (hEnds.1.isInner x hMem)
        · cases hMem
      · rcases hEnds with ⟨hChanges, hFits', hPrompt⟩
        rcases hMem with hMem | hMem
        · exact Or.inl (hChanges.isInner x hMem)
        · cases hSome : r.prompt with
          | some prompt =>
              simp only [hSome, Option.isSome_some, if_true,
                List.not_mem_nil] at hMem
          | none =>
              have hReady' : s'.status = .ready := by
                rw [hSome] at hPrompt
                exact State.ready_of_prompt? hPrompt.symm
              simp only [hSome, Option.isSome_none,
                Bool.false_eq_true, if_false] at hMem
              refine (ih hFits' hReady' hMem).imp_right ?_
              rintro ⟨hCut, hStopped⟩
              simp only [hSome, runFrom_bind]
              generalize (follow o n).runFrom s' = q
                at hStopped ⊢
              rcases q with ⟨e | r', s''⟩
              · exact ⟨hCut, hStopped⟩
              · cases hStopped

end BranchingStory

------------------------------------------------------------
-- Calls
------------------------------------------------------------

namespace BranchingStory

open Play

variable {o : Outline}
variable {h : List Happening}
variable {s : State}

/-
  What happens when a story is asked to go on, after that,
  belongs to its steps, unless their bound cuts it short.
-/
theorem mem_resumeHistory
    (hSound : o.IsSound)
    (steps : Nat)
    (hFits : s.Fits o)
    {x : Happening}
    (hMem : x ∈ resumeHistory o steps s) :
    x = .resumed ∨ x.isInner = true ∨ x = .cut ∧
      ((resume o steps).runFrom s).1 =
        .error .stepsExhausted := by
  unfold resumeHistory at hMem
  split at hMem
  · next hReady =>
      rcases List.mem_cons.mp hMem with hBegins | hLater
      · exact Or.inl hBegins
      · refine Or.inr ((mem_followHistory hSound steps hFits
          hReady hLater).imp_right ?_)
        rintro ⟨hCut, hStopped⟩
        refine ⟨hCut, ?_⟩
        unfold resume
        rw [runFrom_bind, runFrom_get]
        simp only [hReady, runFrom_bind]
        generalize (follow o steps).runFrom s = q at hStopped ⊢
        rcases q with ⟨e | r, s'⟩
        · cases hStopped
          rfl
        · cases hStopped
  · cases hMem

/- A story that is asked to go on unfolds until it stops. -/
theorem resume_unfolds
    (hSound : o.IsSound)
    (steps : Nat)
    (hUnfolds : Unfolds o h s)
    (hSettled : IsSettled o h s) :
    Unfolds o (h ++ resumeHistory o steps s)
        ((resume o steps).runFrom s).2 ∧
      IsSettled o (h ++ resumeHistory o steps s)
        ((resume o steps).runFrom s).2 := by
  unfold resumeHistory resume
  rw [runFrom_bind, runFrom_get]
  split
  · next hReady =>
      have hBegun :=
        hUnfolds.turn (State.Turns.begin hReady)
          (hUnfolds.fits hSound)
      have hWaiting :
          waiting (some o.start) (h ++ [.resumed]) = none := by
        rw [waiting_append]
        rfl
      have hLater :=
        follow_unfolds hSound steps hBegun hReady hWaiting
      rw [List.append_assoc] at hLater
      simp only [hReady, state_bind_pure]
      exact hLater
  · next hOther =>
      rw [List.append_nil]
      cases hStatus : s.status with
      | ready => exact absurd hStatus hOther
      | presenting =>
          simp only [hStatus]
          exact ⟨hUnfolds, hSettled⟩
      | finished =>
          simp only [hStatus]
          exact ⟨hUnfolds, hSettled⟩

/- A choice that is made changes the state as told. -/
theorem choose_changes
    (index : Int)
    (hFits : s.Fits o) :
    Ends (choose index) s
      (fun _ s' => ∃ x f fs,
        s.offers[index.toNat]? = some x ∧
          s.status = .presenting ∧ s.frames = f :: fs ∧
          s' = { s.countChosen x.branch with
            frames := Position.framesInto x.branch f fs
            offers := []
            status := .ready })
      (fun _ s' => s' = s) := by
  unfold choose
  rw [ends_bind, ends_get]
  split
  · rfl
  · next hPresented =>
      split
      · rfl
      · split
        · rfl
        · next x hOffer =>
            have hPresenting : s.status = .presenting := by
              by_contra hOther
              exact hPresented (Or.inl hOther)
            rcases
                hFits.coherent.branch_of_offer
                  (List.mem_of_getElem? hOffer) with
              ⟨f, fs, id, depth, line, branches, b, hAt, _⟩
            have hFrames :
                { s with offers := [] }.frames = f :: fs :=
              hAt.1
            have hTakes := runFrom_takeBranch x.branch hFrames
            rw [ends_bind, ends_set, ends_bind_ok hTakes]
            exact ⟨x, f, fs, hOffer, hPresenting, hAt.1, rfl⟩

/- A choice is one turn of the history. -/
theorem choose_unfolds
    (hSound : o.IsSound)
    (index : Int)
    (hUnfolds : Unfolds o h s)
    (hSettled : IsSettled o h s) :
    Unfolds o (h ++ chooseHistory index s)
        ((choose index).runFrom s).2 ∧
      IsSettled o (h ++ chooseHistory index s)
        ((choose index).runFrom s).2 := by
  have hFits := hUnfolds.fits hSound
  have hFits' := hFits.choose hSound index
  have hEnds := choose_changes index hFits
  unfold chooseHistory
  unfold Ends at hEnds
  generalize (choose index).runFrom s = p at hEnds hFits' ⊢
  rcases p with ⟨e | u, s'⟩
  · cases hEnds
    rw [List.append_nil]
    exact ⟨hUnfolds, hSettled⟩
  · rcases hEnds with
      ⟨x, f, fs, hOffer, hPresenting, hFrames, rfl⟩
    simp only [hOffer, Option.toList_some, List.map_cons,
      List.map_nil]
    refine ⟨hUnfolds.turn (State.Turns.choose x f fs
      (List.mem_of_getElem? hOffer) hPresenting hFrames)
      hFits', Or.inr (Or.inr (Or.inl ?_))⟩
    exact List.cons_ne_nil _ _

/- To move a story is one turn of its history. -/
theorem moveTo_unfolds
    (hSound : o.IsSound)
    (knot : String)
    (stitch : Option String)
    (hUnfolds : Unfolds o h s)
    (hSettled : IsSettled o h s) :
    Unfolds o (h ++ moveHistory o knot stitch)
        ((moveTo o knot stitch).runFrom s).2 ∧
      IsSettled o (h ++ moveHistory o knot stitch)
        ((moveTo o knot stitch).runFrom s).2 := by
  have hEnds :=
    moveTo_ends hSound knot stitch (hUnfolds.fits hSound)
  unfold moveTo moveHistory at *
  cases hFound : findLocation o knot stitch with
  | error e =>
      rw [List.append_nil]
      exact ⟨hUnfolds, hSettled⟩
  | ok a =>
      rw [hFound] at hEnds
      refine ⟨hUnfolds.turn (State.Turns.move a hSettled)
        hEnds, Or.inr (Or.inr (Or.inr ?_))⟩
      rw [waiting_append]
      exact Option.some_ne_none a

/- To set a variable is a turn in which nothing happens. -/
theorem setVariable_unfolds
    (hSound : o.IsSound)
    (name : String)
    (given : Given)
    (hUnfolds : Unfolds o h s)
    (hSettled : IsSettled o h s) :
    Unfolds o h ((setVariable o name given).runFrom s).2 ∧
      IsSettled o h
        ((setVariable o name given).runFrom s).2 := by
  have hEnds :=
    setVariable_ends name given (hUnfolds.fits hSound)
  unfold setVariable at *
  cases hLookup : o.vars.lookup name with
  | none => exact ⟨hUnfolds, hSettled⟩
  | some d =>
      rw [hLookup] at hEnds
      simp only at hEnds ⊢
      split
      · exact ⟨hUnfolds, hSettled⟩
      · next hVariable =>
          rw [if_neg hVariable] at hEnds
          cases hAdmitted :
              admitValue o name d.initial.kind given with
          | error e => exact ⟨hUnfolds, hSettled⟩
          | ok v =>
              rw [hAdmitted] at hEnds
              have hTurns :
                  s.Turns o h [] (s.setVariable name v) :=
                State.Turns.assign name d v hLookup
                  (Bool.eq_false_iff.mpr hVariable)
              exact ⟨hUnfolds.idle hTurns hEnds, hSettled⟩

/- Every history unfolds turn by turn, and it is settled. -/
theorem History.unfolds
    (hHistory : History o h s)
    (hSound : o.IsSound) :
    Unfolds o h s ∧ IsSettled o h s := by
  induction hHistory with
  | start seed =>
      refine ⟨Unfolds.start seed,
        Or.inr (Or.inr (Or.inr ?_))⟩
      exact Option.some_ne_none o.start
  | resume steps hFrom ih =>
      exact resume_unfolds hSound steps ih.1 ih.2
  | choose index hFrom ih =>
      exact choose_unfolds hSound index ih.1 ih.2
  | moveTo knot stitch hFrom ih =>
      exact moveTo_unfolds hSound knot stitch ih.1 ih.2
  | setVariable name given hFrom ih =>
      exact setVariable_unfolds hSound name given ih.1 ih.2
  | restore savedAt hFrom hRestored ih =>
      have hFits := ih.1.fits hSound
      have hSame :=
        (State.restore_save_recovers hSound
          (hFits.isSavable hSound) savedAt).only _ hRestored
      rw [hSame]
      exact ih

end BranchingStory
