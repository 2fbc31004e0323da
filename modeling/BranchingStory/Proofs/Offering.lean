import BranchingStory.Proofs.Changes
import BranchingStory.Proofs.Stopping

/-
  This file tells what a set of choices comes to in the state
  in which a story arrives there.  A branch can be taken if it
  is sticky or was never taken and all of its conditions hold.
  To render the text of one choice changes nothing that bears
  on another, so that all of this is settled on arrival.

  Key definitions include:
    * `Branch.isEligible`
    * `State.eligible`
    * `State.listed`
    * `Offer.IsOf`

  Key theorems include:
    * `Branch.isEligible_passes`
    * `isAvailable_decides`
    * `offersOf_lists`
    * `findFallback?_decides`
    * `arriveAt_decides`
-/

------------------------------------------------------------
-- Branches That Can Be Taken
------------------------------------------------------------

namespace BranchingStory

/- Whether an expression has a value, and a true one. -/
def Expr.isMet
    (m : Memory)
    (e : Expr) : Bool :=
  match e.eval m with
  | .ok v => v.truthy
  | .error _ => false

/-
  Whether a branch can be taken: it is sticky or was never
  taken, and all of its conditions hold.
-/
def Branch.isEligible
    (s : State)
    (b : Branch) : Bool :=
  (b.choice.sticky || s.timesChosen b.id ≤ 0) &&
    b.choice.conditions.all (Expr.isMet s.memory)

namespace State

/- The branches that can be taken, in their order. -/
def eligible
    (s : State)
    (branches : List Branch) : List Branch :=
  branches.filter (Branch.isEligible s)

/- Those of them that are listed for the player. -/
def listed
    (s : State)
    (branches : List Branch) : List Branch :=
  (s.eligible branches).filter fun b => !b.choice.fallback

end State

variable {s s' : State}

/-
  Whether a branch can be taken does not depend on anything
  that rendering may change.
-/
theorem Branch.isEligible_passes
    (hPasses : s.Passes s')
    (b : Branch) :
    b.isEligible s' = b.isEligible s := by
  rcases hPasses with ⟨g, cursors, orders, rfl⟩
  rfl

/- The branches that are listed do not depend on it either. -/
theorem State.listed_passes
    (hPasses : s.Passes s')
    (branches : List Branch) :
    s'.listed branches = s.listed branches := by
  rcases hPasses with ⟨g, cursors, orders, rfl⟩
  rfl

/- A fallback is never listed. -/
theorem State.listed_cons_fallback
    {b : Branch}
    (hFallback : b.choice.fallback = true)
    (bs : List Branch) :
    s.listed (b :: bs) = s.listed bs := by
  unfold listed eligible
  rw [List.filter_cons]
  split
  · rw [List.filter_cons_of_neg (by simp [hFallback])]
  · rfl

/- A branch that cannot be taken is not listed. -/
theorem State.listed_cons_ineligible
    {b : Branch}
    (hIneligible : b.isEligible s = false)
    (bs : List Branch) :
    s.listed (b :: bs) = s.listed bs := by
  unfold listed eligible
  rw [List.filter_cons_of_neg (by simp [hIneligible])]

/- Any other branch is listed ahead of those after it. -/
theorem State.listed_cons_eligible
    {b : Branch}
    (hListed : b.choice.fallback = false)
    (hEligible : b.isEligible s = true)
    (bs : List Branch) :
    s.listed (b :: bs) = b :: s.listed bs := by
  unfold listed eligible
  rw [List.filter_cons_of_pos hEligible,
    List.filter_cons_of_pos (by simp [hListed])]

end BranchingStory

------------------------------------------------------------
-- Looking Through Branches
------------------------------------------------------------

namespace BranchingStory

open Play

variable {o : Outline}

/- Conditions are tested as they hold, without any change. -/
theorem allHold_decides
    (es : List Expr)
    (s : State) :
    Ends (allHold es) s
      (fun r s' => s' = s ∧ r = es.all (Expr.isMet s.memory))
      (fun _ s' => s' = s) := by
  induction es with
  | nil => exact ⟨rfl, rfl⟩
  | cons e es ih =>
      have hTest := runFrom_test e s
      rw [allHold]
      cases hValue : e.eval s.memory with
      | error fault =>
          rw [hValue] at hTest
          rw [ends_bind_error hTest]
      | ok v =>
          rw [hValue] at hTest
          have hMet : e.isMet s.memory = v.truthy := by
            rw [Expr.isMet, hValue]
          rw [ends_bind_ok hTest, List.all_cons, hMet]
          cases v.truthy with
          | true => exact ih
          | false => exact ⟨rfl, rfl⟩

/- Whether a branch can be taken is found out as it is. -/
theorem isAvailable_decides
    (b : Branch)
    (s : State) :
    Ends (isAvailable b) s
      (fun r s' => s' = s ∧ r = b.isEligible s)
      (fun _ s' => s' = s) := by
  unfold isAvailable Branch.isEligible
  rw [ends_bind, ends_get]
  split
  · next hSpent =>
      simp only [Bool.and_eq_true, Bool.not_eq_true',
        decide_eq_true_eq] at hSpent
      rcases hSpent with ⟨hOnce, hTaken⟩
      refine ⟨rfl, ?_⟩
      rw [hOnce, decide_eq_false (Int.not_le.mpr hTaken)]
      rfl
  · next hFresh =>
      have hFirst :
          (b.choice.sticky ||
            decide (s.timesChosen b.id ≤ 0)) = true := by
        cases hSticky : b.choice.sticky with
        | true => rfl
        | false =>
            rw [hSticky] at hFresh
            simpa using hFresh
      rw [hFirst, Bool.true_and]
      exact allHold_decides _ s

/-
  Whether an offer is that of a branch: it leads there, has
  the tags of its choice, and the text is the display line of
  the choice, rendered in a state that only passed from the
  one on arrival.
-/
def Offer.IsOf
    (s : State)
    (b : Branch)
    (x : Offer) : Prop :=
  x.branch = b.id ∧ x.tags = b.choice.display.tags ∧
    ∃ s₁ s₂ text d, s.Passes s₁ ∧
      (render b.choice.display.fragments).runFrom s₁ =
        (.ok (text, d), s₂) ∧
      x.text = trimString text

/- What an offer is of stays so from an earlier state. -/
theorem Offer.IsOf.passes
    {s s' : State}
    {b : Branch}
    {x : Offer}
    (hPasses : s.Passes s')
    (hOf : Offer.IsOf s' b x) :
    Offer.IsOf s b x := by
  rcases hOf with ⟨hBranch, hTags, s₁, s₂, text, d, hLater, hText⟩
  exact ⟨hBranch, hTags, s₁, s₂, text, d,
    hPasses.trans hLater, hText⟩

/-
  Exactly the branches that are listed on arrival are offered,
  in their order, and rendering them is all that changes.
-/
theorem offersOf_lists
    {bs : List Branch}
    (hPlayable : ∀ b ∈ bs, b.IsPlayable o)
    (s : State) :
    Ends (offersOf bs) s
      (fun offers s' =>
        s.Passes s' ∧ (offers = [] → s' = s) ∧
          List.Forall₂ (Offer.IsOf s) (s.listed bs) offers)
      (fun _ _ => True) := by
  induction bs generalizing s with
  | nil => exact ⟨.refl s, fun _ => rfl, .nil⟩
  | cons b bs ih =>
      rw [List.forall_mem_cons] at hPlayable
      rcases hPlayable with ⟨hBranch, hRest⟩
      rw [offersOf]
      split
      · next hFallback =>
          rw [State.listed_cons_fallback hFallback]
          exact ih hRest s
      · next hOffered =>
          rw [ends_bind]
          refine (isAvailable_decides b s).mono ?_
            fun _ _ _ => trivial
          rintro r s' ⟨rfl, rfl⟩
          split
          · next hEligible =>
              rw [State.listed_cons_eligible
                (Bool.eq_false_iff.mpr hOffered) hEligible]
              have hDisplay :=
                (render_shows (l := b.choice.display) hBranch
                  List.mem_cons_self s').passes
              rcases hRender :
                  (render b.choice.display.fragments).runFrom
                    s' with
                ⟨e | ⟨text, d⟩, s₂⟩
              · rw [ends_bind_error hRender]
                trivial
              · rw [hRender] at hDisplay
                rw [ends_bind_ok hRender, ends_bind]
                refine (ih hRest s₂).mono ?_
                  fun _ _ _ => trivial
                rintro offers s₃ ⟨hPasses, _, hOffers⟩
                rw [State.listed_passes hDisplay] at hOffers
                refine ⟨hDisplay.trans hPasses, ?_, ?_⟩
                · intro hNil
                  cases hNil
                · refine .cons ?_ (hOffers.imp fun _ _ hOf =>
                    hOf.passes hDisplay)
                  exact ⟨rfl, rfl, s', s₂, text, d, .refl s',
                    hRender, rfl⟩
          · next hIneligible =>
              rw [State.listed_cons_ineligible
                (Bool.eq_false_iff.mpr hIneligible)]
              exact ih hRest s'

/- Whether a branch is a fallback that can be taken. -/
def Branch.isEligibleFallback
    (s : State)
    (b : Branch) : Bool :=
  b.choice.fallback && b.isEligible s

/- The first fallback that can be taken on arrival is found. -/
theorem findFallback?_decides
    (bs : List Branch)
    (s : State) :
    Ends (findFallback? bs) s
      (fun b? s' => s' = s ∧
        b? = bs.find? (Branch.isEligibleFallback s))
      (fun _ s' => s' = s) := by
  induction bs with
  | nil => exact ⟨rfl, rfl⟩
  | cons b bs ih =>
      rw [findFallback?, List.find?_cons]
      unfold Branch.isEligibleFallback at ih ⊢
      cases hFallback : b.choice.fallback with
      | false => exact ih
      | true =>
          simp only [if_true, Bool.true_and, ends_bind]
          refine (isAvailable_decides b s).mono ?_
            fun _ _ hFault => hFault
          rintro r s' ⟨rfl, rfl⟩
          cases b.isEligible s' with
          | true => exact ⟨rfl, rfl⟩
          | false => exact ih

end BranchingStory

------------------------------------------------------------
-- Arrivals
------------------------------------------------------------

namespace BranchingStory

open Play

variable {o : Outline}

/-
  Whether a state presents branches with offers after another
  in which the story arrived at them: the offers are those of
  the branches that were listed then.
-/
def State.Presents
    (s : State)
    (branches : List Branch)
    (offers : List Offer)
    (s' : State) : Prop :=
  ∃ s₁, s.Passes s₁ ∧
    List.Forall₂ (Offer.IsOf s) (s.listed branches) offers ∧
      s' = { s₁ with offers := offers, status := .presenting }

/- The state after a branch is taken out of given frames. -/
def State.taking
    (b : Branch)
    (f : Frame)
    (fs : List Frame)
    (s : State) : State :=
  { s.countChosen b.id with
    frames := Position.framesInto b.id f fs }

/- A branch that can be taken is listed, or is a fallback. -/
theorem State.eligible_eq_nil
    {s : State}
    {branches : List Branch}
    (hListed : s.listed branches = [])
    (hFallback :
      branches.find? (Branch.isEligibleFallback s) = none) :
    s.eligible branches = [] := by
  rw [eligible, List.filter_eq_nil_iff]
  intro b hBranch hEligible
  have hNotFallback := List.find?_eq_none.mp hFallback b hBranch
  rw [Branch.isEligibleFallback, hEligible, Bool.and_true]
    at hNotFallback
  rw [listed, List.filter_eq_nil_iff] at hListed
  have hNotListed :=
    hListed b (List.mem_filter.mpr ⟨hBranch, hEligible⟩)
  simp [hNotFallback] at hNotListed

/-
  On arrival at a set of choices, unless something is raised,
  the branches that are listed are presented; if there is none,
  the first fallback that can be taken is; and if there is none
  of these either, the story has run out of choices and stays
  as it is.
-/
theorem arriveAt_decides
    {s : State}
    {f : Frame}
    {fs : List Frame}
    {branches : List Branch}
    (hPlayable : ∀ b ∈ branches, b.IsPlayable o)
    (hFrames : s.frames = f :: fs)
    (line : Nat) :
    Ends (arriveAt line branches) s
      (fun r s' =>
        (s.listed branches ≠ [] ∧ ∃ offers,
          s.Presents branches offers s' ∧
            r = ⟨none, some (.choices offers)⟩) ∨
        (s.listed branches = [] ∧ ∃ b,
          branches.find? (Branch.isEligibleFallback s) =
              some b ∧
            s' = s.taking b f fs ∧ r = .silent))
      (fun e s' =>
        e.isRaised = true ∨
          (s.eligible branches = [] ∧ s' = s ∧
            e = .outOfChoices s.location line)) := by
  unfold arriveAt
  rw [ends_bind]
  refine ((offersOf_lists hPlayable s).and
    (offersOf_raises branches s)).mono ?_
      fun _ _ hFault => Or.inl hFault.2
  rintro offers s₁ ⟨⟨hPasses, hSame, hOffers⟩, _⟩
  cases offers with
  | cons x offers =>
      refine Or.inl ⟨?_, x :: offers, ⟨s₁, hPasses, hOffers, rfl⟩,
        rfl⟩
      intro hNone
      rw [hNone] at hOffers
      cases hOffers
  | nil =>
      cases hSame rfl
      have hNone : s.listed branches = [] :=
        List.forall₂_nil_right_iff.mp hOffers
      simp only [ends_bind]
      refine ((findFallback?_decides branches s).and
        (findFallback?_raises branches s)).mono ?_
          fun _ _ hFault => Or.inl hFault.2
      rintro b? s₂ ⟨⟨rfl, rfl⟩, _⟩
      cases hFound :
          branches.find? (Branch.isEligibleFallback s₂) with
      | none =>
          exact Or.inr
            ⟨State.eligible_eq_nil hNone hFound, rfl, rfl⟩
      | some b =>
          have hTaken := runFrom_takeBranch b.id hFrames
          simp only
          rw [ends_bind_ok hTaken]
          exact Or.inr ⟨hNone, b, rfl, rfl, rfl⟩

end BranchingStory
