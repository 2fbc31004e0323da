import BranchingStory.Play.Access
import BranchingStory.Proofs.Saves
import BranchingStory.Proofs.Steps

/-
  This file shows what is true of every state that a story can
  come to: it fits the story, and nothing that is asked of it
  is ever met by a fault of its own making.

  Key definitions include:
    * `State.Fits`
    * `Reachable`

  Key theorems include:
    * `resume_ends`
    * `choose_ends`
    * `moveTo_ends`
    * `setVariable_ends`
    * `Reachable.fits`
    * `positions_are_coherent`
-/

------------------------------------------------------------
-- Following
------------------------------------------------------------

namespace BranchingStory

open Play

variable {o : Outline}
variable {s : State}

/- Whether what a state remembers and where it is fit. -/
structure State.Fits
    (o : Outline)
    (s : State) : Prop where
  sound : s.IsSound o
  coherent : s.position.IsCoherent o

/- A state after a step fits if the state before it did. -/
theorem Position.Steps.fits
    {s' : State}
    (hSteps : s.position.Steps o s')
    (hNodup : o.ids.Nodup)
    (hReady : s.status = .ready)
    (hFits : s.Fits o) :
    s'.Fits o := by
  rcases hSteps.moves with ⟨es, hMoves⟩
  exact ⟨hSteps.sound,
    hMoves.isCoherent hNodup hReady hFits.coherent⟩

/- A story that is asked nothing goes on. -/
theorem State.ready_of_prompt?
    (hNone : s.prompt? = none) :
    s.status = .ready := by
  rw [prompt?] at hNone
  split at hNone
  · cases hNone
  · cases hNone
  · next hStatus => exact hStatus

/- A story that asks for a choice presents its offers. -/
theorem State.presenting_of_prompt?
    {offers : List Offer}
    (hPrompt : s.prompt? = some (.choices offers)) :
    s.status = .presenting ∧ s.offers = offers := by
  rw [prompt?] at hPrompt
  split at hPrompt
  · cases hPrompt
  · next hStatus =>
      cases hPrompt
      exact ⟨hStatus, rfl⟩
  · cases hPrompt

/- A story that asks for nothing more has finished. -/
theorem State.finished_of_prompt?
    (hPrompt : s.prompt? = some .done) :
    s.status = .finished := by
  rw [prompt?] at hPrompt
  split at hPrompt
  · next hStatus => exact hStatus
  · cases hPrompt
  · cases hPrompt

/-
  A story that is followed keeps fitting, even if a fault stops
  it on the way.  The prompt is that of the state it comes to.
-/
theorem follow_ends
    (hSound : o.IsSound)
    (n : Nat)
    (hFits : s.Fits o)
    (hReady : s.status = .ready) :
    Ends (follow o n) s
      (fun r s' => s'.Fits o ∧ some r.2 = s'.prompt?)
      (fun e s' => s'.Fits o ∧ e.isForeseen = true) := by
  induction n generalizing s with
  | zero => exact ⟨hFits, rfl⟩
  | succ n ih =>
      rw [follow, ends_bind]
      refine (step_ends hSound hFits.sound hFits.coherent
        hReady).mono ?_ ?_
      · rintro r s' ⟨hSteps, hPrompt⟩
        have hFits' := hSteps.fits hSound.nodup hReady hFits
        cases hSome : r.prompt with
        | some prompt =>
            rw [hSome] at hPrompt
            exact ⟨hFits', hPrompt⟩
        | none =>
            rw [hSome] at hPrompt
            have hReady' :=
              State.ready_of_prompt? hPrompt.symm
            simp only [ends_bind, ends_pure]
            exact ih hFits' hReady'
      · rintro e s' ⟨hSteps, _, hForeseen⟩
        exact ⟨hSteps.fits hSound.nodup hReady hFits,
          hForeseen⟩

/- A story that is resumed keeps fitting. -/
theorem resume_ends
    (hSound : o.IsSound)
    (steps : Nat)
    (hFits : s.Fits o) :
    Ends (resume o steps) s
      (fun r s' => s'.Fits o ∧ some r.2 = s'.prompt?)
      (fun e s' => s'.Fits o ∧ e.isForeseen = true) := by
  unfold resume
  rw [ends_bind, ends_get]
  cases hStatus : s.status with
  | finished => exact ⟨hFits, rfl⟩
  | presenting => exact ⟨hFits, rfl⟩
  | ready =>
      simp only [ends_bind, ends_pure]
      exact follow_ends hSound steps hFits hStatus

end BranchingStory

------------------------------------------------------------
-- Choosing
------------------------------------------------------------

namespace BranchingStory

open Play

variable {o : Outline}
variable {s : State}

/-
  A choice is taken if it is one of those on offer, and the
  story goes on in its branch.
-/
theorem choose_ends
    (hSound : o.IsSound)
    (index : Int)
    (hFits : s.Fits o) :
    Ends (choose index) s
      (fun _ s' => s'.Fits o ∧
        ∃ f fs id depth line branches b,
          s.position.IsAt o f fs
              (.choices id depth line branches) ∧
            b ∈ branches ∧
            s'.position = ⟨s.location, .ready,
              Position.framesInto b.id f fs, []⟩)
      (fun e s' => s' = s ∧
        (e = .nothingToChoose ∨
          e = .invalidChoice index s.offers.length)) := by
  unfold choose
  rw [ends_bind, ends_get]
  split
  · exact ⟨rfl, Or.inl rfl⟩
  · split
    · exact ⟨rfl, Or.inr rfl⟩
    · split
      · exact ⟨rfl, Or.inr rfl⟩
      · next x hOffer =>
          rcases
              hFits.coherent.branch_of_offer
                (List.mem_of_getElem? hOffer) with
            ⟨f, fs, id, depth, line, branches, b, hAt, hMem,
              hId⟩
          have hBranch :
              x.branch ∈ branches.map Branch.id :=
            hId ▸ List.mem_map_of_mem hMem
          have hBranches :=
            hFits.coherent.branches_subset hAt
          have hBound : x.branch < o.size := by
            rw [← hId]
            exact hSound.lt_size
              (Outline.branchId_mem_ids (hBranches hMem))
          have hState :=
            hFits.sound.withPosition
              ⟨s.location, s.status, s.frames, []⟩
          simp only [ends_bind, ends_set]
          refine (takeBranch_ends hBound hState
            hAt.1).mono ?_ fun _ _ hFault => hFault
          rintro _ s' ⟨hState', hPosition⟩
          have hPosition' :
              { s' with status := .ready }.position =
                ⟨s.location, .ready,
                  Position.framesInto x.branch f fs, []⟩ := by
            change Position.mk s'.position.location .ready
              s'.position.frames s'.position.offers = _
            rw [hPosition]
            rfl
          refine ⟨⟨hState'.withPosition
            ⟨s'.location, .ready, s'.frames, s'.offers⟩,
            ?_⟩, f, fs, id, depth, line, branches, b, hAt,
            hMem, ?_⟩
          · change { s' with
              status := .ready }.position.IsCoherent o
            rw [hPosition']
            exact hFits.coherent.take hSound.nodup hAt
              hBranch
          · rw [hId]
            exact hPosition'

end BranchingStory

------------------------------------------------------------
-- Access From Outside
------------------------------------------------------------

namespace BranchingStory

open Play

variable {o : Outline}
variable {s : State}

/- A location that is found exists. -/
theorem findLocation_ok
    (hSound : o.IsSound)
    {knot : String}
    {stitch : Option String}
    {a : Address}
    (hFound : findLocation o knot stitch = .ok a) :
    o.hasAddress a = true := by
  rw [findLocation] at hFound
  split at hFound
  · cases hFound
  · next k hKnot =>
      split at hFound
      · rcases hSound.begins knot k hKnot with ⟨name, hBegins⟩
        rw [hBegins] at hFound
        cases hFound
        exact Outline.hasAddress_of_mem_keys hKnot
          (Knot.mem_keys_of_defaultStitch? hBegins)
      · split at hFound
        · next hStitch =>
            cases hFound
            exact Outline.hasAddress_of_mem_keys hKnot
              ((Table.contains_eq_true _ _).mp hStitch)
        · cases hFound

/- A location that is not found has a name that is unknown. -/
theorem findLocation_error
    {knot : String}
    {stitch : Option String}
    {e : PlayError}
    (hMissing : findLocation o knot stitch = .error e) :
    e = .unknownKnot knot ∨
      ∃ name, stitch = some name ∧
        e = .unknownStitch name knot := by
  rw [findLocation] at hMissing
  split at hMissing
  · cases hMissing
    exact Or.inl rfl
  · split at hMissing
    · cases hMissing
    · next name =>
        split at hMissing
        · cases hMissing
        · cases hMissing
          exact Or.inr ⟨name, rfl, rfl⟩

/- A story is moved to a place that exists, or stays. -/
theorem moveTo_ends
    (hSound : o.IsSound)
    (knot : String)
    (stitch : Option String)
    (hFits : s.Fits o) :
    Ends (moveTo o knot stitch) s
      (fun _ s' => s'.Fits o)
      (fun e s' => s' = s ∧
        (e = .unknownKnot knot ∨
          ∃ name, stitch = some name ∧
            e = .unknownStitch name knot)) := by
  unfold moveTo
  split
  · next e hMissing => exact ⟨rfl, findLocation_error hMissing⟩
  · next a hFound =>
      have hAddress := findLocation_ok hSound hFound
      exact ⟨hFits.sound.withPosition ⟨a, .ready, [], []⟩,
        Position.isCoherent_of_frames_nil hAddress (by simp)⟩

/- A value that is admitted fits the variable. -/
theorem admitValue_ok
    {name : String}
    {k : Kind}
    {given : Given}
    {v : Value}
    (hAdmitted : admitValue o name k given = .ok v) :
    v.Fits o.IsPath k := by
  rw [admitValue] at hAdmitted
  split at hAdmitted
  · next hDivert =>
      split at hAdmitted
      · cases hAdmitted
      · simp only at hAdmitted
        split at hAdmitted
        · next a hPlace =>
            cases hAdmitted
            refine ⟨hDivert.symm, ?_⟩
            intro s hPath
            cases hPath
            exact ⟨a, Outline.hasAddress_of_findPlace? hPlace,
              rfl⟩
        · cases hAdmitted
  · next hOther =>
      split at hAdmitted
      · cases hAdmitted
      · split at hAdmitted
        · next hKind =>
            cases hAdmitted
            rw [← hKind] at hOther ⊢
            exact Value.fits_self hOther
        · cases hAdmitted

/- A value that is refused is of another kind or no place. -/
theorem admitValue_error
    {name : String}
    {k : Kind}
    {given : Given}
    {e : PlayError}
    (hRefused : admitValue o name k given = .error e) :
    (∃ got, e = .typeMismatch name k got) ∨
      ∃ target, e = .unknownTarget target := by
  rw [admitValue] at hRefused
  split at hRefused
  · split at hRefused
    · cases hRefused
      exact Or.inl ⟨_, rfl⟩
    · simp only at hRefused
      split at hRefused
      · cases hRefused
      · cases hRefused
        exact Or.inr ⟨_, rfl⟩
  · split at hRefused
    · cases hRefused
      exact Or.inl ⟨_, rfl⟩
    · split at hRefused
      · cases hRefused
      · cases hRefused
        exact Or.inl ⟨_, rfl⟩

/- A variable is set to a value that fits it, or kept. -/
theorem setVariable_ends
    (name : String)
    (given : Given)
    (hFits : s.Fits o) :
    Ends (setVariable o name given) s
      (fun _ s' => s'.Fits o)
      (fun e s' => s' = s ∧
        (e = .unknownVariable name ∨ e = .constant name ∨
          (∃ k got, e = .typeMismatch name k got) ∨
            ∃ target, e = .unknownTarget target)) := by
  unfold setVariable
  split
  · exact ⟨rfl, Or.inl rfl⟩
  · next d hLookup =>
      split
      · exact ⟨rfl, Or.inr (Or.inl rfl)⟩
      · split
        · next e hRefused =>
            refine ⟨rfl, Or.inr (Or.inr ?_)⟩
            rcases admitValue_error hRefused with
              ⟨got, hKind⟩ | hTarget
            · exact Or.inl ⟨_, got, hKind⟩
            · exact Or.inr hTarget
        · next v hAdmitted =>
            exact ⟨hFits.sound.setVariable hLookup
              (admitValue_ok hAdmitted), hFits.coherent⟩

end BranchingStory

------------------------------------------------------------
-- Saving
------------------------------------------------------------

namespace BranchingStory

variable {o : Outline}
variable {s : State}

/- A story that fits still does after it is resumed. -/
theorem State.Fits.resume
    (hFits : s.Fits o)
    (hSound : o.IsSound)
    (steps : Nat) :
    ((resume o steps).runFrom s).2.Fits o :=
  ((resume_ends hSound steps hFits).mono
    (fun _ _ hEnds => hEnds.1)
    (fun _ _ hEnds => hEnds.1)).state

/- A story that fits still does after a choice. -/
theorem State.Fits.choose
    (hFits : s.Fits o)
    (hSound : o.IsSound)
    (index : Int) :
    ((choose index).runFrom s).2.Fits o :=
  ((choose_ends hSound index hFits).mono
    (fun _ _ hEnds => hEnds.1)
    (fun _ _ hEnds => hEnds.1 ▸ hFits)).state

/- A story starts where it fits. -/
theorem State.fits_start
    (hSound : o.IsSound)
    (seed : Int) :
    (State.start o seed).Fits o :=
  ⟨isSound_start hSound seed,
    Position.isCoherent_of_frames_nil hSound.start
      (show Status.ready ≠ .presenting by decide)⟩

/- A state that fits its story can be saved. -/
theorem State.Fits.isSavable
    (hSound : o.IsSound)
    (hFits : s.Fits o) :
    s.IsSavable o where
  location := hFits.coherent.location
  names := hFits.sound.names
  fits := hFits.sound.fits
  visits := hFits.sound.visits
  visited := hFits.sound.visited
  frames := by
    intro f hMem
    rcases hFits.coherent.places f hMem with
      ⟨items, hBlock, _⟩
    refine ⟨hSound.lt_size (Outline.mem_ids_of_block? hBlock),
      ?_⟩
    rw [hBlock]
    rfl
  chosen := hFits.sound.chosen
  cursors := hFits.sound.cursors
  orders := hFits.sound.orders
  offers := by
    intro x hMem
    rcases hFits.coherent.branch_of_offer hMem with
      ⟨f, fs, id, depth, line, branches, b, hAt, hOfSet, hId⟩
    have hOfStory := hFits.coherent.branches_subset hAt hOfSet
    rw [← hId]
    refine ⟨hSound.lt_size
      (Outline.branchId_mem_ids hOfStory), ?_⟩
    rw [Outline.branch?_of_mem hSound.nodup hOfStory]
    rfl
  presenting := hFits.coherent.presenting.mp

end BranchingStory

------------------------------------------------------------
-- Reachable States
------------------------------------------------------------

namespace BranchingStory

open Play

/-
  The states that a story can come to: those that it starts
  in, those after anything that is asked of it, whether or not
  a fault stops it on the way, and those that are restored
  from its own saves.
-/
inductive Reachable
    (o : Outline) : State → Prop where
  | start (seed : Int) : Reachable o (State.start o seed)
  | resume
      {s : State}
      (steps : Nat)
      (hFrom : Reachable o s) :
      Reachable o ((resume o steps).runFrom s).2
  | choose
      {s : State}
      (index : Int)
      (hFrom : Reachable o s) :
      Reachable o ((choose index).runFrom s).2
  | moveTo
      {s : State}
      (knot : String)
      (stitch : Option String)
      (hFrom : Reachable o s) :
      Reachable o ((moveTo o knot stitch).runFrom s).2
  | setVariable
      {s : State}
      (name : String)
      (given : Given)
      (hFrom : Reachable o s) :
      Reachable o ((setVariable o name given).runFrom s).2
  | restore
      {s s' : State}
      (savedAt : String)
      (hFrom : Reachable o s)
      (hRestored : restore o (s.save savedAt) = .ok s') :
      Reachable o s'

variable {o : Outline}
variable {s : State}

/- Every state that a story can come to fits it. -/
theorem Reachable.fits
    (hSound : o.IsSound)
    (hReachable : Reachable o s) :
    s.Fits o := by
  induction hReachable with
  | start seed => exact State.fits_start hSound seed
  | resume steps hFrom ih => exact ih.resume hSound steps
  | choose index hFrom ih => exact ih.choose hSound index
  | moveTo knot stitch hFrom ih =>
      exact ((moveTo_ends hSound knot stitch ih).mono
        (fun _ _ hEnds => hEnds)
        (fun _ _ hEnds => hEnds.1 ▸ ih)).state
  | setVariable name given hFrom ih =>
      exact ((setVariable_ends name given ih).mono
        (fun _ _ hEnds => hEnds)
        (fun _ _ hEnds => hEnds.1 ▸ ih)).state
  | restore savedAt hFrom hRestored ih =>
      have hSame :=
        (State.restore_save_recovers hSound
          (ih.isSavable hSound) savedAt).only _ hRestored
      rw [hSame]
      exact ih

end BranchingStory

------------------------------------------------------------
-- Coherence
------------------------------------------------------------

namespace BranchingStory

open Play

/-
  Wherever a story that can be read comes to, its position is
  coherent.  Nothing that is asked of it there fails for want
  of an item, a block, a branch or a variable: following it is
  stopped by foreseen faults only, and what is asked from
  outside only by a fault that tells what is wrong with it.
-/
theorem positions_are_coherent
    {source : String}
    {story : Story}
    (hRead : Story.read source = .ok story)
    {s : State}
    (hReachable : Reachable story.outline s) :
    s.position.IsCoherent story.outline ∧
    (∀ steps e s',
      (resume story.outline steps).runFrom s = (.error e, s') →
        e.isForeseen = true) ∧
    (∀ index e s',
      (choose index).runFrom s = (.error e, s') →
        e = .nothingToChoose ∨
          e = .invalidChoice index s.offers.length) ∧
    (∀ knot stitch e s',
      (moveTo story.outline knot stitch).runFrom s =
          (.error e, s') →
        e = .unknownKnot knot ∨
          ∃ name, stitch = some name ∧
            e = .unknownStitch name knot) ∧
    (∀ name given e s',
      (setVariable story.outline name given).runFrom s =
          (.error e, s') →
        e = .unknownVariable name ∨ e = .constant name ∨
          (∃ k got, e = .typeMismatch name k got) ∨
            ∃ target, e = .unknownTarget target) := by
  have hSound := Story.isSound_of_read hRead
  have hFits := hReachable.fits hSound
  refine ⟨hFits.coherent, ?_, ?_, ?_, ?_⟩
  · intro steps e s' hRun
    exact ((resume_ends hSound steps hFits).of_error hRun).2
  · intro index e s' hRun
    exact ((choose_ends hSound index hFits).of_error hRun).2
  · intro knot stitch e s' hRun
    exact ((moveTo_ends hSound knot stitch hFits).of_error
      hRun).2
  · intro name given e s' hRun
    exact ((setVariable_ends name given hFits).of_error
      hRun).2

/-
  A story with a choice within a choice: inside the first it
  presents the second, two blocks deep, and asking it to go on
  instead is met by a foreseen fault.
-/
theorem positions_are_coherent_nested :
    ∃ story s,
      Story.read "* One\n** Deep\n* Two\n" = .ok story ∧
        Reachable story.outline s ∧
        s.status = .presenting ∧ s.frames.length = 2 ∧
        s.position.IsCoherent story.outline ∧
        ∃ e s', (resume story.outline 9).runFrom s =
            (.error e, s') ∧ e.isForeseen = true := by
  have hCheck :
      (match Story.read "* One\n** Deep\n* Two\n" with
        | .error _ => false
        | .ok story =>
            let o := story.outline
            let s := ((resume o 9).runFrom (.start o 0)).2
            let s := ((choose 0).runFrom s).2
            let s := ((resume o 9).runFrom s).2
            (s.status = .presenting && s.frames.length = 2) &&
              (((resume o 9).runFrom s).1 matches
                .error _)) = true := by
    decide +kernel
  cases hRead : Story.read "* One\n** Deep\n* Two\n" with
  | error e =>
      rw [hRead] at hCheck
      cases hCheck
  | ok story =>
      rw [hRead] at hCheck
      have hReachable :=
        (((Reachable.start (o := story.outline) 0).resume
          9).choose 0).resume 9
      simp only [Bool.and_eq_true, decide_eq_true_eq] at hCheck
      rcases hCheck with ⟨⟨hPresenting, hNested⟩, hStopped⟩
      rcases positions_are_coherent hRead hReachable with
        ⟨hCoherent, hForeseen, _⟩
      refine ⟨story, _, rfl, hReachable, hPresenting, hNested,
        hCoherent, ?_⟩
      generalize hRun : (resume story.outline 9).runFrom _ = p
        at hStopped
      rcases p with ⟨e | r, s'⟩
      · exact ⟨e, s', rfl, hForeseen 9 e s' hRun⟩
      · cases hStopped

end BranchingStory
