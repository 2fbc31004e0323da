import BranchingStory.Proofs.Histories

/-
  This file shows that a choice that is not sticky is taken
  once at most.  Between the offer and the choice nothing else
  counts the branch, however the story is asked to go on, and
  a branch that has been taken is not offered again.

  Key definitions include:
    * `taken`
    * `State.IsOpen`
    * `State.Takes`
    * `State.SparesSpent`

  Key theorems include:
    * `State.Turns.takes`
    * `Unfolds.sparesSpent`
    * `Unfolds.timesChosen_eq`
    * `taken_at_most_once`
-/

------------------------------------------------------------
-- Branches Taken
------------------------------------------------------------

namespace BranchingStory

/- The branch that is taken in a happening, if there is one. -/
def Happening.branch? : Happening → Option Nat
  | .took branch => some branch
  | _ => none

/- The branches that are taken, one after the other. -/
def taken
    (h : List Happening) : List Nat :=
  h.filterMap Happening.branch?

/- The branches taken in one history and a further one. -/
@[simp] theorem taken_append
    (h h' : List Happening) :
    taken (h ++ h') = taken h ++ taken h' :=
  List.filterMap_append

/- No branch is taken where items are shown. -/
@[simp] theorem taken_showed
    (shown : List Showing) :
    taken (shown.map .showed) = [] := by
  induction shown with
  | nil => rfl
  | cons x shown ih => exact ih

/- How often a branch has been taken after a further time. -/
theorem State.timesChosen_countChosen
    (branch n : Nat)
    (s : State) :
    (s.countChosen branch).timesChosen n =
      s.timesChosen n + [branch].count n := by
  unfold timesChosen countChosen
  rw [Table.lookup_insert]
  by_cases hSame : branch = n
  · simp [hSame, timesChosen]
  · have hKey : (branch : Int) ≠ n :=
      fun hEq => hSame (Int.ofNat_inj.mp hEq)
    rw [if_neg hKey]
    simp [hSame]

/-
  Whether a branch may be taken next: it is on offer, or it is
  a fresh one.
-/
def State.IsOpen
    (o : Outline)
    (s : State)
    (branch : Nat) : Prop :=
  (∃ x ∈ s.offers, x.branch = branch) ∨
    ∃ b ∈ o.branches, b.id = branch ∧ b.IsFresh s

/-
  How a turn counts the branches: none is taken, and only what
  was open is on offer after it, or an open one is taken and
  nothing is on offer any more.
-/
inductive State.Takes
    (o : Outline)
    (s : State) : List Nat → State → Prop where
  | none
      (s' : State)
      (hChosen : s'.chosen = s.chosen)
      (hOffers : ∀ x ∈ s'.offers, s.IsOpen o x.branch) :
      Takes o s [] s'
  | one
      (branch : Nat)
      (s' : State)
      (hChosen : s'.chosen = (s.countChosen branch).chosen)
      (hOffers : s'.offers = [])
      (hOpen : s.IsOpen o branch) :
      Takes o s [branch] s'

variable {o : Outline}
variable {h new : List Happening}
variable {s s' : State}

/- What keeps the counts and the offers takes no branch. -/
theorem State.Takes.keep
    (hChosen : s'.chosen = s.chosen)
    (hOffers : s'.offers = s.offers) :
    s.Takes o [] s' := by
  apply Takes.none s' hChosen
  intro x hMem
  rw [hOffers] at hMem
  exact Or.inl ⟨x, hMem, rfl⟩

/- To show items takes no branch. -/
theorem State.Shows.takes
    {shown : List Showing}
    (hShows : State.Shows o s shown s') :
    s'.chosen = s.chosen ∧ s'.offers = s.offers := by
  rcases hShows.passes with ⟨g, cursors, orders, rfl⟩
  exact ⟨rfl, rfl⟩

/- A step takes an open branch, or none. -/
theorem State.Changes.takes
    (hChanges : s.Changes o new s')
    (hOffers : s.offers = []) :
    s.Takes o (taken new) s' := by
  cases hChanges with
  | enter stitch hFrames => exact Takes.keep rfl rfl
  | leave f g fs hFrames => exact Takes.keep rfl rfl
  | finish f hFrames => exact Takes.keep rfl rfl
  | pass f fs shown s' hFrames hShows =>
      rw [taken_showed]
      exact Takes.keep hShows.takes.1 hShows.takes.2
  | divert f fs shown s₁ a hFrames hShows =>
      rw [taken_append, taken_showed]
      exact Takes.keep hShows.takes.1 hShows.takes.2
  | conclude f fs shown s₁ hFrames hShows =>
      rw [taken_showed]
      exact Takes.keep hShows.takes.1 hShows.takes.2
  | assign f fs id name value v hFrames hLeaf =>
      exact Takes.keep rfl rfl
  | present f fs shown s₁ offers hFrames hShows hFresh =>
      rw [taken_showed]
      refine Takes.none _ hShows.takes.1 ?_
      intro x hMem
      exact Or.inr (hFresh x hMem)
  | take f fs shown s₁ b hFrames hShows hBranch hFresh =>
      rw [taken_append, taken_showed]
      refine Takes.one b.id _ ?_
        (hShows.takes.2.trans hOffers)
        (Or.inr ⟨b, hBranch, rfl, hFresh⟩)
      simp [countChosen, timesChosen, hShows.takes.1]
  | stick f fs shown s' hFrames hShows =>
      rw [taken_showed]
      exact Takes.keep hShows.takes.1 hShows.takes.2

/- A turn takes an open branch, or none. -/
theorem State.Turns.takes
    (hTurns : s.Turns o h new s')
    (hFits : s.Fits o) :
    s.Takes o (taken new) s' := by
  cases hTurns with
  | begin hReady => exact Takes.keep rfl rfl
  | step new s' hReady hWaiting hChanges =>
      have hOffers : s.offers = [] := by
        by_contra hOffered
        have hPresenting :=
          hFits.coherent.presenting.mpr hOffered
        cases hReady.symm.trans hPresenting
      exact hChanges.takes hOffers
  | cut => exact Takes.keep rfl rfl
  | choose x f fs hOffer hPresenting hFrames =>
      exact Takes.one x.branch _ rfl rfl
        (Or.inl ⟨x, hOffer, rfl⟩)
  | move a hSettled =>
      refine Takes.none _ rfl ?_
      intro x hMem
      cases hMem
  | assign name d v hLookup hVariable =>
      exact Takes.keep rfl rfl

end BranchingStory

------------------------------------------------------------
-- Branches Spent
------------------------------------------------------------

namespace BranchingStory

/-
  Whether every branch that is not sticky has been taken once
  at most, and not at all if it is on offer.
-/
def State.SparesSpent
    (o : Outline)
    (s : State) : Prop :=
  ∀ b ∈ o.branches, b.choice.sticky = false →
    s.timesChosen b.id ≤ 1 ∧
      ∀ x ∈ s.offers, x.branch = b.id →
        s.timesChosen b.id ≤ 0

variable {o : Outline}
variable {h new : List Happening}
variable {s s' : State}

/- A branch that is open and not sticky has not been taken. -/
theorem State.SparesSpent.of_isOpen
    (hSpares : s.SparesSpent o)
    (hSound : o.IsSound)
    {b : Branch}
    (hBranch : b ∈ o.branches)
    (hOnce : b.choice.sticky = false)
    (hOpen : s.IsOpen o b.id) :
    s.timesChosen b.id ≤ 0 := by
  rcases hOpen with ⟨x, hOffer, hId⟩ | ⟨c, hMem, hId, hFresh⟩
  · exact (hSpares b hBranch hOnce).2 x hOffer hId
  · have hSame : b = c := by
      have hFound := Outline.branch?_of_mem hSound.nodup hMem
      rw [hId, Outline.branch?_of_mem hSound.nodup hBranch]
        at hFound
      exact Option.some.inj hFound
    rw [← hSame, Branch.IsFresh, hOnce] at hFresh
    rcases hFresh with hSticky | hFresh
    · cases hSticky
    · exact hFresh

/- How often a branch has been taken after a turn. -/
theorem State.Takes.timesChosen_eq
    {bs : List Nat}
    (hTakes : s.Takes o bs s')
    (n : Nat) :
    s'.timesChosen n = s.timesChosen n + bs.count n := by
  cases hTakes with
  | none s' hChosen hOffers =>
      simp [timesChosen, hChosen]
  | one branch s' hChosen hOffers hOpen =>
      rw [← timesChosen_countChosen]
      simp only [timesChosen, hChosen]

/- Spent branches are spared in every turn. -/
theorem State.Takes.sparesSpent
    {bs : List Nat}
    (hTakes : s.Takes o bs s')
    (hSound : o.IsSound)
    (hSpares : s.SparesSpent o) :
    s'.SparesSpent o := by
  intro b hBranch hOnce
  have hCount := hTakes.timesChosen_eq b.id
  rcases hSpares b hBranch hOnce with ⟨hSpent, _⟩
  have hOpen := hSpares.of_isOpen hSound hBranch hOnce
  cases hTakes with
  | none s' hChosen hOffers =>
      have hSame : s'.timesChosen b.id = s.timesChosen b.id :=
        hCount.trans (Int.add_zero _)
      rw [hSame]
      refine ⟨hSpent, ?_⟩
      intro x hMem hId
      exact hOpen (hId ▸ hOffers x hMem)
  | one branch s' hChosen hOffers hBranchOpen =>
      rw [hOffers]
      refine ⟨?_, fun x hMem => nomatch hMem⟩
      by_cases hSame : branch = b.id
      · have hFresh := hOpen (hSame ▸ hBranchOpen)
        simp only [hSame, List.count_singleton_self] at hCount
        omega
      · simp only [List.count_singleton, beq_iff_eq, hSame,
          if_false] at hCount
        omega

/- A story spares its spent branches all along. -/
theorem Unfolds.sparesSpent
    (hUnfolds : Unfolds o h s)
    (hSound : o.IsSound) :
    s.SparesSpent o := by
  induction hUnfolds with
  | start seed =>
      intro b hBranch hOnce
      refine ⟨?_, fun x hMem => nomatch hMem⟩
      change (0 : Int) ≤ 1
      decide
  | turn hUnfolds hTurns hFits ih =>
      exact (hTurns.takes (hUnfolds.fits hSound)).sparesSpent
        hSound ih

/- The counts tell how often each branch has been taken. -/
theorem Unfolds.timesChosen_eq
    (hUnfolds : Unfolds o h s)
    (hSound : o.IsSound)
    (n : Nat) :
    s.timesChosen n = (taken h).count n := by
  induction hUnfolds with
  | start seed => rfl
  | turn hUnfolds hTurns hFits ih =>
      have hTakes := hTurns.takes (hUnfolds.fits hSound)
      rw [taken_append, List.count_append, Int.natCast_add,
        ← ih]
      exact hTakes.timesChosen_eq n

end BranchingStory

------------------------------------------------------------
-- Once Only
------------------------------------------------------------

namespace BranchingStory

open Play

/-
  Wherever a story that can be read comes to, a branch that is
  not sticky has been taken once at most, fallbacks included.
  Once it has been taken it is not on offer.  The count is how
  often the branch has been taken in the history of the state,
  by a choice or as a fallback.
-/
theorem taken_at_most_once
    {source : String}
    {story : Story}
    (hRead : Story.read source = .ok story)
    {s : State}
    (hReachable : Reachable story.outline s)
    {b : Branch}
    (hBranch : b ∈ story.outline.branches)
    (hOnce : b.choice.sticky = false) :
    s.timesChosen b.id ≤ 1 ∧
    (s.status = .presenting → 0 < s.timesChosen b.id →
      ∀ x ∈ s.offers, x.branch ≠ b.id) ∧
    ∀ h, History story.outline h s →
      s.timesChosen b.id = (taken h).count b.id := by
  have hSound := Story.isSound_of_read hRead
  rcases reachable_iff_history.mp hReachable with
    ⟨h, hHistory⟩
  have hUnfolds := (hHistory.unfolds hSound).1
  rcases hUnfolds.sparesSpent hSound b hBranch hOnce with
    ⟨hSpent, hOffers⟩
  refine ⟨hSpent, ?_, ?_⟩
  · intro _ hTaken x hOffer hId
    exact absurd hTaken (Int.not_lt.mpr (hOffers x hOffer hId))
  · intro h hHistory
    exact (hHistory.unfolds hSound).1.timesChosen_eq hSound b.id

/-
  A story that comes back to its choices: the first has been
  taken and is spent, and the sticky one is on offer again.
-/
theorem taken_at_most_once_hub :
    ∃ story s h b,
      Story.read
          "== hub\n* Once -> hub\n+ Again -> hub\n" =
          .ok story ∧
        Reachable story.outline s ∧
        History story.outline h s ∧
        s.status = .presenting ∧ s.offers.length = 1 ∧
        b ∈ story.outline.branches ∧
        s.timesChosen b.id = 1 ∧
        (∀ x ∈ s.offers, x.branch ≠ b.id) ∧
        (taken h).count b.id = 1 := by
  have hCheck :
      (match
        Story.read
          "== hub\n* Once -> hub\n+ Again -> hub\n" with
        | .error _ => false
        | .ok story =>
            let o := story.outline
            let s := ((resume o 9).runFrom (.start o 0)).2
            let s := ((choose 0).runFrom s).2
            let s := ((resume o 9).runFrom s).2
            (s.status = .presenting && s.offers.length = 1) &&
              o.branches.any fun b =>
                !b.choice.sticky && s.timesChosen b.id = 1) =
        true := by
    decide +kernel
  cases hRead :
      Story.read
        "== hub\n* Once -> hub\n+ Again -> hub\n" with
  | error e =>
      rw [hRead] at hCheck
      cases hCheck
  | ok story =>
      rw [hRead] at hCheck
      have hReachable :=
        (((Reachable.start (o := story.outline) 0).resume
          9).choose 0).resume 9
      simp only [Bool.and_eq_true, decide_eq_true_eq,
        List.any_eq_true, Bool.not_eq_true'] at hCheck
      rcases hCheck with
        ⟨⟨hPresenting, hOffers⟩, b, hBranch, hOnce, hTaken⟩
      rcases taken_at_most_once hRead hReachable hBranch hOnce
        with ⟨_, hSpared, hCounts⟩
      rcases hReachable.history with ⟨h, hHistory⟩
      refine ⟨story, _, h, b, rfl, hReachable, hHistory,
        hPresenting, hOffers, hBranch, hTaken, ?_, ?_⟩
      · exact hSpared hPresenting (by rw [hTaken]; decide)
      · have hCount := hCounts h hHistory
        rw [hTaken] at hCount
        exact Int.ofNat_inj.mp hCount.symm

end BranchingStory
