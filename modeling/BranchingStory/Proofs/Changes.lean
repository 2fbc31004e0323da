import BranchingStory.Proofs.Showings
import BranchingStory.Proofs.Traces

/-
  This file tells all that a step can change of a state, and
  what happens on the way: which alternatives are shown, which
  divert is followed and which branch is taken.

  Key definitions include:
    * `Happening`
    * `leadsTo?`
    * `fallbackTaken?`
    * `stepHistory`
    * `State.Changes`

  Key theorems include:
    * `emit_changes`
    * `arriveAt_changes`
    * `step_changes`
-/

------------------------------------------------------------
-- Happenings
------------------------------------------------------------

namespace BranchingStory

/-
  What can happen to a story that is played: that it is asked
  to go on, moved to a place from outside, cut short by the
  bound on its steps, that a divert to a place is followed, a
  branch is taken, or an alternative shows an item.
-/
inductive Happening where
  | resumed
  | moved (a : Address)
  | cut
  | diverted (a : Address)
  | took (branch : Nat)
  | showed (x : Showing)

/-
  The place that a line leads to: that of the divert which
  ends it, unless the divert ends the story.
-/
def leadsTo?
    (l : ContentLine)
    (s : State) : Option Address :=
  match (render l.fragments).runFrom s with
  | (.ok (_, some d), s') =>
      ((divertPlace? d).runFrom s').1.toOption.join
  | _ => none

/- What happens when a line is rendered. -/
def emitHistory
    (l : ContentLine)
    (s : State) : List Happening :=
  (showingsOf l s).map .showed ++
    (leadsTo? l s).toList.map .diverted

/- What happens when a part of the content is executed. -/
def executeHistory : Item → State → List Happening
  | .line _ l, s => emitHistory l s
  | .gather _ _ (some l), s => emitHistory l s
  | _, _ => []

/- The fallback that is taken where there is no offer. -/
def fallbackTaken?
    (branches : List Branch)
    (s : State) : Option Branch :=
  match (offersOf branches).runFrom s with
  | (.ok [], s') =>
      ((findFallback? branches).runFrom s').1.toOption.join
  | _ => none

/- What happens on arrival at a set of choices. -/
def arriveHistory
    (branches : List Branch)
    (s : State) : List Happening :=
  (offersShowings branches s).map .showed ++
    (fallbackTaken? branches s).toList.map fun b => .took b.id

/- A state whose innermost frame has come past its part. -/
def State.past
    (f : Frame)
    (fs : List Frame)
    (s : State) : State :=
  { s with frames := f.past :: fs }

/- What happens in a step. -/
def stepHistory
    (o : Outline)
    (s : State) : List Happening :=
  match s.frames, s.position.next? o with
  | _ :: _, some (.choices _ _ _ branches) =>
      arriveHistory branches s
  | f :: fs, some i =>
      executeHistory i (s.past f fs)
  | _, _ => []

end BranchingStory

------------------------------------------------------------
-- Changes
------------------------------------------------------------

namespace BranchingStory

/-
  How a state can change in one step, and what happens then:
  a stitch is entered, a block left or the story finished; a
  part is executed, which may end with a divert to a place or
  to the end of the story; choices are presented, a fallback
  is taken, or the story sticks at its choices.
-/
inductive State.Changes
    (o : Outline)
    (s : State) : List Happening → State → Prop where
  | enter
      (stitch : Stitch)
      (hFrames : s.frames = []) :
      Changes o s []
        { s.countVisit s.location with
          frames := [⟨stitch.body.id, 0⟩] }
  | leave
      (f g : Frame)
      (fs : List Frame)
      (hFrames : s.frames = f :: g :: fs) :
      Changes o s [] { s with frames := g :: fs }
  | finish
      (f : Frame)
      (hFrames : s.frames = [f]) :
      Changes o s []
        { s with status := .finished, frames := [] }
  | pass
      (f : Frame)
      (fs : List Frame)
      (shown : List Showing)
      (s' : State)
      (hFrames : s.frames = f :: fs)
      (hShows : State.Shows o (s.past f fs) shown s') :
      Changes o s (shown.map .showed) s'
  | divert
      (f : Frame)
      (fs : List Frame)
      (shown : List Showing)
      (s' : State)
      (a : Address)
      (hFrames : s.frames = f :: fs)
      (hShows : State.Shows o (s.past f fs) shown s') :
      Changes o s (shown.map .showed ++ [.diverted a])
        { s' with location := a, frames := [] }
  | conclude
      (f : Frame)
      (fs : List Frame)
      (shown : List Showing)
      (s' : State)
      (hFrames : s.frames = f :: fs)
      (hShows : State.Shows o (s.past f fs) shown s') :
      Changes o s (shown.map .showed)
        { s' with status := .finished, frames := [] }
  | assign
      (f : Frame)
      (fs : List Frame)
      (id : Nat)
      (name : String)
      (value : Expr)
      (v : Value)
      (hFrames : s.frames = f :: fs)
      (hLeaf : (id, .assign name value) ∈ o.leaves) :
      Changes o s [] ((s.past f fs).setVariable name v)
  | present
      (f : Frame)
      (fs : List Frame)
      (shown : List Showing)
      (s' : State)
      (offers : List Offer)
      (hFrames : s.frames = f :: fs)
      (hShows : State.Shows o s shown s')
      (hFresh : Offer.AreFresh o.branches s offers) :
      Changes o s (shown.map .showed)
        { s' with offers := offers, status := .presenting }
  | take
      (f : Frame)
      (fs : List Frame)
      (shown : List Showing)
      (s' : State)
      (b : Branch)
      (hFrames : s.frames = f :: fs)
      (hShows : State.Shows o s shown s')
      (hBranch : b ∈ o.branches)
      (hFresh : b.IsFresh s) :
      Changes o s (shown.map .showed ++ [.took b.id])
        { s'.countChosen b.id with
          frames := Position.framesInto b.id f fs }
  | stick
      (f : Frame)
      (fs : List Frame)
      (shown : List Showing)
      (s' : State)
      (hFrames : s.frames = f :: fs)
      (hShows : State.Shows o s shown s') :
      Changes o s (shown.map .showed) s'

end BranchingStory

------------------------------------------------------------
-- Content
------------------------------------------------------------

namespace BranchingStory

open Play

variable {o : Outline}
variable {s : State}
variable {f : Frame}
variable {fs : List Frame}

/- A destination is found without any change. -/
theorem state_divertPlace?
    (d : Divert)
    (s : State) :
    ((divertPlace? d).runFrom s).2 = s := by
  unfold divertPlace?
  split
  · rfl
  · rfl
  · rw [runFrom_bind, runFrom_get]
    simp only
    split <;> rfl
  · rfl

/- Where items are shown, the story stays in its blocks. -/
theorem State.Shows.frames_eq
    {shown : List Showing}
    {s' : State}
    (hShows : State.Shows o s shown s') :
    s'.frames = s.frames := by
  rcases hShows.passes with ⟨g, cursors, orders, rfl⟩
  rfl

/- Inside a block, items are shown without leaving it. -/
theorem State.Shows.frames_ne
    {shown : List Showing}
    {s' : State}
    (hShows : State.Shows o s shown s')
    (hFrames : s.frames = f :: fs) :
    s'.frames ≠ [] := by
  rw [hShows.frames_eq, hFrames]
  exact List.cons_ne_nil f fs

/-
  A line is rendered and its divert followed; what happens is
  what it shows and where it leads.
-/
theorem emit_changes
    {p : Nat × Leaf}
    (hLeaf : p ∈ o.leaves)
    {l : ContentLine}
    (hLine : l ∈ p.2.lines)
    (hFrames : s.frames = f :: fs) :
    Ends (emit l) (s.past f fs)
      (fun _ s' =>
        s.Changes o (emitHistory l (s.past f fs)) s')
      (fun _ s' =>
        s.Changes o (emitHistory l (s.past f fs)) s' ∧
          s'.frames ≠ []) := by
  have hShows := render_shows hLeaf hLine (s.past f fs)
  unfold emit emitHistory leadsTo?
  rcases hRender : (render l.fragments).runFrom (s.past f fs)
    with ⟨e | ⟨text, d?⟩, s₁⟩
  · rw [hRender] at hShows
    rw [ends_bind_error hRender, Option.toList_none,
      List.map_nil, List.append_nil]
    exact ⟨State.Changes.pass f fs _ s₁ hFrames hShows,
      hShows.frames_ne rfl⟩
  · rw [hRender] at hShows
    rw [ends_bind_ok hRender]
    cases d? with
    | none =>
        simp only [Option.toList_none, List.map_nil,
          List.append_nil]
        exact State.Changes.pass f fs _ s₁ hFrames hShows
    | some d =>
        have hSame := state_divertPlace? d s₁
        simp only [followDivert, ends_bind]
        unfold Ends
        generalize (divertPlace? d).runFrom s₁ = place
          at hSame ⊢
        rcases place with ⟨e | a?, s₂⟩
        · cases hSame
          simp only [Except.toOption, Option.join_none,
            Option.toList_none, List.map_nil, List.append_nil]
          exact ⟨State.Changes.pass f fs _ s₂ hFrames hShows,
            hShows.frames_ne rfl⟩
        · cases hSame
          cases a? with
          | none =>
              simp only [Except.toOption, Option.join_some,
                Option.toList_none, List.map_nil,
                List.append_nil]
              exact State.Changes.conclude f fs _ s₂ hFrames
                hShows
          | some a =>
              exact State.Changes.divert f fs _ s₂ a hFrames
                hShows

/-
  A part that is no set of choices is executed.  A fault leaves
  the story inside its stitch.
-/
theorem execute_changes
    {i : Item}
    (hLeaf : (i.id, i.node.leaf) ∈ o.leaves)
    (hItem : i.isChoices = false)
    (hFrames : s.frames = f :: fs) :
    Ends (execute o i) (s.past f fs)
      (fun _ s' =>
        s.Changes o (executeHistory i (s.past f fs)) s')
      (fun _ s' =>
        s.Changes o (executeHistory i (s.past f fs)) s' ∧
          s'.frames ≠ []) := by
  have hPass :=
    State.Changes.pass (o := o) f fs [] (s.past f fs) hFrames
      (State.Shows.nothing _)
  cases i with
  | line id content =>
      exact emit_changes hLeaf List.mem_cons_self hFrames
  | gather id depth content? =>
      cases content? with
      | none => exact hPass
      | some content =>
          exact emit_changes hLeaf List.mem_cons_self hFrames
  | assign id name value line =>
      have hFault :
          s.Changes o [] (s.past f fs) ∧
            (s.past f fs).frames ≠ [] :=
        ⟨hPass, List.cons_ne_nil f.past fs⟩
      have hSame :
          ((evaluate value).runFrom (s.past f fs)).2 =
            s.past f fs := by
        rw [runFrom_evaluate]
      simp only [execute, assign, bind_assoc]
      rcases hRun : (evaluate value).runFrom (s.past f fs)
        with ⟨e | v, s₁⟩
      · rw [hRun] at hSame
        cases hSame
        rw [ends_bind_error hRun]
        exact hFault
      · rw [hRun] at hSame
        cases hSame
        rw [ends_bind_ok hRun]
        cases o.vars.lookup name with
        | none => exact hFault
        | some d =>
            simp only
            split
            · exact State.Changes.assign f fs id name value v
                hFrames hLeaf
            · exact hFault
  | choices id depth line branches => cases hItem

end BranchingStory

------------------------------------------------------------
-- Choices
------------------------------------------------------------

namespace BranchingStory

open Play

variable {o : Outline}
variable {s : State}
variable {f : Frame}
variable {fs : List Frame}

/- A branch is taken where there is a frame around it. -/
theorem runFrom_takeBranch
    (branch : Nat)
    (hFrames : s.frames = f :: fs) :
    (takeBranch branch).runFrom s =
      (.ok (), { s.countChosen branch with
        frames := Position.framesInto branch f fs }) := by
  have hFrames' : (s.countChosen branch).frames = f :: fs :=
    hFrames
  unfold takeBranch
  rw [runFrom_bind, runFrom_modify]
  simp only
  rw [runFrom_bind, runFrom_get]
  simp only [hFrames']
  rfl

/- To choose an offer enters its branch. -/
theorem runFrom_choose_offer
    (hStatus : s.status = .presenting)
    (hFrames : s.frames = f :: fs)
    {i : Nat}
    {x : Offer}
    (hOffer : s.offers[i]? = some x) :
    (choose i).runFrom s =
      (.ok (), { s.countChosen x.branch with
        offers := []
        status := .ready
        frames := Position.framesInto x.branch f fs }) := by
  have hOffered :
      ¬ (s.status ≠ .presenting ∨ s.offers.isEmpty = true) := by
    rintro (hOther | hEmpty)
    · exact hOther hStatus
    · rw [List.isEmpty_iff.mp hEmpty] at hOffer
      cases hOffer
  have hFrames' : { s with offers := [] }.frames = f :: fs :=
    hFrames
  unfold choose
  rw [runFrom_bind, runFrom_get]
  simp only
  rw [if_neg hOffered,
    if_neg (Int.not_lt.mpr (Int.natCast_nonneg i))]
  simp only [Int.toNat_natCast, hOffer]
  rw [runFrom_bind, runFrom_set]
  simp only
  rw [runFrom_bind, runFrom_takeBranch _ hFrames']
  rfl

/-
  At a set of choices, fresh branches are offered, or a fresh
  fallback is taken, or the story sticks there.
-/
theorem arriveAt_changes
    {line : Nat}
    {branches : List Branch}
    (hBranches : branches ⊆ o.branches)
    (hPlayable : ∀ b ∈ branches, b.IsPlayable o)
    (hFrames : s.frames = f :: fs) :
    Ends (arriveAt line branches) s
      (fun _ s' => s.Changes o (arriveHistory branches s) s')
      (fun _ s' => s.Changes o (arriveHistory branches s) s' ∧
        s'.frames ≠ []) := by
  have hOffers := offersOf_shows hPlayable s
  unfold arriveAt arriveHistory fallbackTaken?
  rcases hRun : (offersOf branches).runFrom s
    with ⟨e | offers, s₁⟩
  · have hShows := hOffers.of_error hRun
    rw [ends_bind_error hRun, Option.toList_none, List.map_nil,
      List.append_nil]
    exact ⟨State.Changes.stick f fs _ s₁ hFrames hShows,
      hShows.frames_ne hFrames⟩
  · rcases hOffers.of_ok hRun with ⟨hShows, hFresh⟩
    rw [ends_bind_ok hRun]
    cases offers with
    | cons x offers =>
        rw [Option.toList_none, List.map_nil, List.append_nil]
        exact State.Changes.present f fs _ s₁ _ hFrames hShows
          (hFresh.subset hBranches)
    | nil =>
        have hFound := findFallback?_finds branches s₁
        simp only [ends_bind]
        unfold Ends at hFound ⊢
        generalize (findFallback? branches).runFrom s₁ = found
          at hFound ⊢
        rcases found with ⟨e | b?, s₂⟩
        · cases hFound
          simp only [Except.toOption, Option.join_none,
            Option.toList_none, List.map_nil, List.append_nil]
          exact ⟨State.Changes.stick f fs _ s₁ hFrames hShows,
            hShows.frames_ne hFrames⟩
        · rcases hFound with ⟨rfl, hFallback⟩
          cases b? with
          | none =>
              simp only [Except.toOption, Option.join_some,
                Option.toList_none, List.map_nil,
                List.append_nil]
              exact ⟨State.Changes.stick f fs _ s₂ hFrames
                  hShows, hShows.frames_ne hFrames⟩
          | some b =>
              rcases hFallback b rfl with ⟨hBranch, _, hNew⟩
              have hFrames' := hShows.frames_eq.trans hFrames
              have hNew' : b.IsFresh s := by
                rcases hShows.passes with
                  ⟨g, cursors, orders, rfl⟩
                exact hNew
              simp only
              rw [runFrom_bind,
                runFrom_takeBranch b.id hFrames']
              exact State.Changes.take f fs _ s₂ b hFrames
                hShows (hBranches hBranch) hNew'

end BranchingStory

------------------------------------------------------------
-- Steps
------------------------------------------------------------

namespace BranchingStory

open Play

variable {o : Outline}
variable {s : State}

/-
  A step changes a state in one of the ways above, with what
  happens in it.  A fault leaves the story inside its stitch.
-/
theorem step_changes
    (hCoherent : s.position.IsCoherent o) :
    Ends (step o) s
      (fun _ s' => s.Changes o (stepHistory o s) s')
      (fun _ s' => s.Changes o (stepHistory o s) s' ∧
        s'.frames ≠ []) := by
  unfold step stepHistory
  rw [ends_bind, ends_get]
  cases hFrames : s.frames with
  | nil =>
      rcases Option.isSome_iff_exists.mp hCoherent.location with
        ⟨stitch, hStitch⟩
      have hStitch' : o.stitch? s.location = some stitch :=
        hStitch
      simp only [enter, ends_bind, ends_get, hStitch']
      exact State.Changes.enter stitch hFrames
  | cons f fs =>
      have hMem : f ∈ s.frames := by
        rw [hFrames]
        exact List.mem_cons_self
      rcases hCoherent.places f hMem with
        ⟨items, hBlock, hNatural, _⟩
      simp only [hBlock]
      split
      · next hEnd =>
          rw [hCoherent.next?_eq_none hFrames hBlock hEnd]
          cases fs with
          | nil => exact State.Changes.finish f hFrames
          | cons g fs =>
              exact State.Changes.leave f g fs hFrames
      · next hInside =>
          rcases
              itemAt_eq hNatural (Int.not_le.mp hInside) with
            ⟨i, _, hItem, hItemAt⟩
          have hAt : s.position.IsAt o f fs i :=
            ⟨hFrames, items, hBlock, hItem⟩
          rw [hItemAt, pure_bind, hAt.next?_eq]
          cases hChoices : i.isChoices with
          | true =>
              cases i with
              | choices id depth line branches =>
                  exact arriveAt_changes
                    (hCoherent.branches_subset hAt)
                    (fun b hBranch =>
                      hCoherent.isPlayable hAt hBranch)
                    hFrames
              | line id content => cases hChoices
              | gather id depth content => cases hChoices
              | assign id name value line => cases hChoices
          | false =>
              have hExecuted :=
                execute_changes (hCoherent.leaf_mem hAt)
                  hChoices hFrames
              simp only [Bool.not_false, if_true, ends_bind,
                ends_modify]
              cases i with
              | choices id depth line branches =>
                  cases hChoices
              | line id content => exact hExecuted
              | gather id depth content => exact hExecuted
              | assign id name value line => exact hExecuted

end BranchingStory
