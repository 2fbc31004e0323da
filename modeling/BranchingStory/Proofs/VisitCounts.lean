import BranchingStory.Proofs.Histories

/-
  This file shows that the visits that a state remembers are
  the arrivals of its history.  A story counts a visit when it
  enters a stitch, which is the case once after each arrival:
  a state that is ready without frames has arrived at a place
  and not entered it yet.

  Key definitions include:
    * `State.pending`
    * `State.seen`
    * `destinations`
    * `State.CountsArrivals`

  Key theorems include:
    * `State.Changes.seen_eq`
    * `State.Turns.seen_eq`
    * `Unfolds.countsArrivals`
    * `visits_are_arrivals`
-/

------------------------------------------------------------
-- Pending Visits
------------------------------------------------------------

namespace BranchingStory

/- The place that is to be entered next, if there is one. -/
def State.pending
    (s : State) : List Address :=
  if s.status = .ready ∧ s.frames = [] then [s.location]
  else []

/-
  How often a place has been visited, the visit that is to
  come next included.
-/
def State.seen
    (s : State)
    (a : Address) : Int :=
  s.memory.visitsTo a + s.pending.count a

/- The arrivals of a history, with the place that waits. -/
def destinations
    (a? : Option Address)
    (h : List Happening) : List Address :=
  arrivals a? h ++ (waiting a? h).toList

/- What comes after a history starts from what waits. -/
theorem destinations_append
    (a? : Option Address)
    (h h' : List Happening) :
    destinations a? (h ++ h') =
      arrivals a? h ++ destinations (waiting a? h) h' := by
  rw [destinations, destinations, arrivals_append,
    waiting_append, List.append_assoc]

variable {o : Outline}
variable {h new : List Happening}
variable {s s' : State}

/- Inside a stitch nothing is to be entered. -/
theorem State.pending_of_frames
    (hFrames : s.frames ≠ []) :
    s.pending = [] :=
  if_neg fun hOutside => hFrames hOutside.2

/- A story that is not ready enters nothing. -/
theorem State.pending_of_status
    (hStatus : s.status ≠ .ready) :
    s.pending = [] :=
  if_neg fun hOutside => hStatus hOutside.1

/- How often a place has been visited after a further time. -/
theorem Memory.visitsTo_countVisit
    (a b : Address)
    (s : State) :
    (s.countVisit b).memory.visitsTo a =
      s.memory.visitsTo a + [b].count a := by
  unfold State.countVisit visitsTo
  rw [Table.lookup_insert]
  by_cases hSame : b = a
  · simp [hSame]
  · simp [hSame]

/- Items that are shown are no arrivals. -/
theorem arrivals_showed
    (a? : Option Address)
    (shown : List Showing) :
    arrivals a? (shown.map .showed) = [] := by
  induction shown with
  | nil => rfl
  | cons x shown ih => exact ih

/- Where items are shown, no visit is counted. -/
theorem State.Shows.visitsTo_eq
    {shown : List Showing}
    (hShows : State.Shows o s shown s')
    (a : Address) :
    s'.memory.visitsTo a = s.memory.visitsTo a := by
  rcases hShows.passes with ⟨g, cursors, orders, rfl⟩
  rfl

/- Where nothing is to be entered, visits are all there is. -/
theorem State.seen_of_pending
    (hPending : s.pending = [])
    (a : Address) :
    s.seen a = s.memory.visitsTo a := by
  rw [seen, hPending]
  exact Int.add_zero _

end BranchingStory

------------------------------------------------------------
-- Steps
------------------------------------------------------------

namespace BranchingStory

variable {o : Outline}
variable {h new : List Happening}
variable {s s' : State}

/-
  A step from inside a stitch that arrives nowhere adds
  nothing to what has been seen.
-/
theorem State.seen_inside
    {a : Address}
    (hFrames : s.frames ≠ [])
    (hPending : s'.pending = [])
    (hVisits :
      s'.memory.visitsTo a = s.memory.visitsTo a)
    (hNew : arrivals none new = []) :
    s'.seen a = s.seen a + (arrivals none new).count a := by
  rw [seen_of_pending (pending_of_frames hFrames),
    seen_of_pending hPending, hVisits, hNew]
  exact (Int.add_zero _).symm

/- A step adds to what has been seen where it arrives. -/
theorem State.Changes.seen_eq
    (hChanges : s.Changes o new s')
    (hReady : s.status = .ready)
    (a : Address) :
    s'.seen a = s.seen a + (arrivals none new).count a := by
  have hInside {f : Frame} {fs : List Frame}
      (hFrames : s.frames = f :: fs) :
      s.frames ≠ [] :=
    hFrames ▸ List.cons_ne_nil f fs
  cases hChanges with
  | enter stitch hFrames =>
      have hOutside : s.pending = [s.location] :=
        if_pos ⟨hReady, hFrames⟩
      have hEntered :=
        Memory.visitsTo_countVisit a s.location s
      rw [seen_of_pending
        (pending_of_frames (List.cons_ne_nil _ _)), seen,
        hOutside, ← hEntered]
      exact (Int.add_zero _).symm
  | leave f g fs hFrames =>
      exact seen_inside (hInside hFrames)
        (pending_of_frames (List.cons_ne_nil g fs))
        rfl rfl
  | finish f hFrames =>
      exact seen_inside (hInside hFrames)
        (pending_of_status nofun) rfl rfl
  | pass f fs shown s' hFrames hShows =>
      exact seen_inside (hInside hFrames)
        (pending_of_frames (hShows.frames_ne rfl))
        (hShows.visitsTo_eq a) (arrivals_showed none shown)
  | divert f fs shown s₁ b hFrames hShows =>
      have hReady' : s₁.status = .ready := by
        rcases hShows.passes with ⟨g, cursors, orders, rfl⟩
        exact hReady
      have hOutside :
          { s₁ with location := b, frames := [] }.pending =
            [b] :=
        if_pos ⟨hReady', rfl⟩
      rw [arrivals_append, arrivals_showed, List.nil_append,
        seen_of_pending (pending_of_frames (hInside hFrames)),
        seen, hOutside]
      exact congrArg (· + _) (hShows.visitsTo_eq a)
  | conclude f fs shown s₁ hFrames hShows =>
      exact seen_inside (hInside hFrames)
        (pending_of_status nofun) (hShows.visitsTo_eq a)
        (arrivals_showed none shown)
  | assign f fs id name value v hFrames hLeaf =>
      exact seen_inside (hInside hFrames)
        (pending_of_frames (List.cons_ne_nil f.past fs))
        rfl rfl
  | present f fs shown s₁ offers hFrames hShows hFresh =>
      exact seen_inside (hInside hFrames)
        (pending_of_status nofun) (hShows.visitsTo_eq a)
        (arrivals_showed none shown)
  | take f fs shown s₁ b hFrames hShows hBranch hFresh =>
      refine seen_inside (hInside hFrames)
        (pending_of_frames (List.cons_ne_nil _ _))
        (hShows.visitsTo_eq a) ?_
      rw [arrivals_append, arrivals_showed]
      rfl
  | stick f fs shown s' hFrames hShows =>
      exact seen_inside (hInside hFrames)
        (pending_of_frames (hShows.frames_ne hFrames))
        (hShows.visitsTo_eq a) (arrivals_showed none shown)

end BranchingStory

------------------------------------------------------------
-- Turns
------------------------------------------------------------

namespace BranchingStory

variable {o : Outline}
variable {h new : List Happening}
variable {s s' : State}

/-
  Whether a state has seen what its history arrived at.  What
  waits is what is to be entered next.  Where the bound on the
  steps has cut the story short, an arrival may be lost.
-/
structure State.CountsArrivals
    (o : Outline)
    (h : List Happening)
    (s : State) : Prop where
  waits : ∀ a, waiting (some o.start) h = some a →
    s.pending = [a]
  counts : .cut ∉ h → ∀ a,
    s.seen a = (destinations (some o.start) h).count a

/- A settled state remembers all arrivals as visits. -/
theorem State.CountsArrivals.visitsTo_eq
    (hCounts : s.CountsArrivals o h)
    (hSettled : IsSettled o h s)
    (hUncut : .cut ∉ h)
    (a : Address) :
    s.memory.visitsTo a =
      (arrivals (some o.start) h).count a := by
  have hSeen := hCounts.counts hUncut a
  have hPending :
      s.pending = (waiting (some o.start) h).toList := by
    cases hWaiting : waiting (some o.start) h with
    | some b => exact hCounts.waits b hWaiting
    | none =>
        rcases hSettled with hCut | hStatus | hFrames | hWaits
        · exact absurd hCut hUncut
        · exact pending_of_status hStatus
        · exact pending_of_frames hFrames
        · exact absurd hWaiting hWaits
  rw [seen, destinations, hPending, List.count_append,
    Int.natCast_add] at hSeen
  exact (Int.add_left_inj _).mp hSeen

/- After a turn, what waits is what is to be entered next. -/
theorem State.Turns.pending_eq
    (hTurns : s.Turns o h new s')
    (hCounts : s.CountsArrivals o h)
    {a : Address}
    (hWaiting : waiting (some o.start) (h ++ new) = some a) :
    s'.pending = [a] := by
  rw [waiting_append] at hWaiting
  cases hTurns with
  | begin hReady => cases hWaiting
  | step new s' hReady hIdle hChanges =>
      rw [hIdle, waiting_inner hChanges.isInner] at hWaiting
      cases hWaiting
  | cut => exact hCounts.waits a hWaiting
  | choose x f fs hOffer hPresenting hFrames =>
      have hPending := hCounts.waits a hWaiting
      rw [pending_of_status (by simp [hPresenting])]
        at hPending
      cases hPending
  | move b hSettled =>
      cases hWaiting
      exact if_pos ⟨rfl, rfl⟩
  | assign name d v hLookup hVariable =>
      exact hCounts.waits a hWaiting

/- After a turn, what has been seen are the destinations. -/
theorem State.Turns.seen_eq
    (hTurns : s.Turns o h new s')
    (hCounts : s.CountsArrivals o h)
    (hUncut : .cut ∉ h ++ new)
    (a : Address) :
    s'.seen a =
      (destinations (some o.start) (h ++ new)).count a := by
  rw [List.mem_append, not_or] at hUncut
  have hSeen := hCounts.counts hUncut.1 a
  rw [destinations_append]
  cases hTurns with
  | begin hReady =>
      rw [hSeen, destinations, destinations]
      simp [arrivals, waiting]
  | step new s' hReady hIdle hChanges =>
      rw [destinations, hIdle, Option.toList_none,
        List.append_nil] at hSeen
      rw [hIdle, destinations,
        waiting_inner hChanges.isInner, Option.toList_none,
        List.append_nil, List.count_append,
        Int.natCast_add, ← hSeen]
      exact hChanges.seen_eq hReady a
  | cut => exact absurd List.mem_cons_self hUncut.2
  | choose x f fs hOffer hPresenting hFrames =>
      have hPending : s.pending = [] :=
        pending_of_status (by simp [hPresenting])
      rw [seen_of_pending hPending] at hSeen
      rw [seen_of_pending
        (pending_of_frames (List.cons_ne_nil _ _))]
      exact hSeen
  | move b hSettled =>
      rw [List.count_append, Int.natCast_add,
        ← hCounts.visitsTo_eq hSettled hUncut.1 a]
      rfl
  | assign name d v hLookup hVariable => exact hSeen

/- A story counts its arrivals all along. -/
theorem Unfolds.countsArrivals
    (hUnfolds : Unfolds o h s) :
    s.CountsArrivals o h := by
  induction hUnfolds with
  | start seed =>
      constructor
      · intro a hWaiting
        cases hWaiting
        rfl
      · intro _ a
        exact Int.zero_add _
  | turn hUnfolds hTurns hFits ih =>
      constructor
      · intro a hWaiting
        exact hTurns.pending_eq ih hWaiting
      · intro hUncut a
        exact hTurns.seen_eq ih hUncut a

end BranchingStory

------------------------------------------------------------
-- Visits
------------------------------------------------------------

namespace BranchingStory

open Play

variable {o : Outline}
variable {h new : List Happening}
variable {s : State}

/- Where no divert is followed, no place is arrived at. -/
theorem arrivals_eq_nil
    (hNew : ∀ x ∈ new,
      x = .resumed ∨ x.isInner = true ∧
        ∀ a, x ≠ .diverted a) :
    arrivals none new = [] := by
  induction new with
  | nil => rfl
  | cons x new ih =>
      rw [List.forall_mem_cons] at hNew
      rcases hNew with ⟨rfl | ⟨hInner, hStays⟩, hRest⟩
      · exact ih hRest
      · cases x with
        | resumed => cases hInner
        | moved a => cases hInner
        | cut => cases hInner
        | diverted a => exact absurd rfl (hStays a)
        | took branch => exact ih hRest
        | showed x => exact ih hRest

/-
  Wherever a story that can be read comes to, each place has
  been visited as often as the story has arrived there in its
  history: at its start, by a divert, and where it went on
  after having been moved.  Choices count no visit, nor does
  going on inside a stitch, whatever fault stops it, unless a
  divert is followed.  Only going on that does not come to a
  halt within its steps is left out; it has no end in which
  visits could be counted.
-/
theorem visits_are_arrivals
    {source : String}
    {story : Story}
    (hRead : Story.read source = .ok story)
    {h : List Happening}
    {s : State}
    (hHistory : History story.outline h s)
    (hUncut : .cut ∉ h) :
    (∀ a, s.memory.visitsTo a =
      (arrivals (some story.outline.start) h).count a) ∧
    (∀ index a,
      ((choose index).runFrom s).2.memory.visitsTo a =
        s.memory.visitsTo a) ∧
    (∀ steps r s',
      (resume story.outline steps).runFrom s = (r, s') →
      r ≠ .error .stepsExhausted →
      .cut ∉ h ++ resumeHistory story.outline steps s ∧
      (waiting (some story.outline.start) h = none →
        (∀ a, .diverted a ∉
          resumeHistory story.outline steps s) →
        ∀ a, s'.memory.visitsTo a = s.memory.visitsTo a)) := by
  have hSound := Story.isSound_of_read hRead
  rcases hHistory.unfolds hSound with ⟨hUnfolds, hSettled⟩
  have hFits := hUnfolds.fits hSound
  have hVisits :=
    hUnfolds.countsArrivals.visitsTo_eq hSettled hUncut
  refine ⟨hVisits, ?_, ?_⟩
  · intro index a
    have hEnds := choose_changes index hFits
    unfold Ends at hEnds
    generalize (choose index).runFrom s = p at hEnds ⊢
    rcases p with ⟨e | u, s'⟩
    · cases hEnds
      rfl
    · rcases hEnds with ⟨x, f, fs, _, _, _, rfl⟩
      rfl
  · intro steps r s' hRun hHalts
    have hInner {x : Happening}
        (hMem : x ∈ resumeHistory story.outline steps s) :
        x = .resumed ∨ x.isInner = true := by
      rcases mem_resumeHistory hSound steps hFits hMem with
        hBegins | hInner | ⟨_, hStopped⟩
      · exact Or.inl hBegins
      · exact Or.inr hInner
      · rw [hRun] at hStopped
        exact absurd hStopped hHalts
    have hUncut' :
        .cut ∉ h ++ resumeHistory story.outline steps s := by
      rw [List.mem_append]
      rintro (hCut | hCut)
      · exact hUncut hCut
      · rcases hInner hCut with hBegins | hNever
        · cases hBegins
        · cases hNever
    refine ⟨hUncut', ?_⟩
    intro hWaiting hStays a
    rcases (hHistory.resume steps).unfolds hSound with
      ⟨hUnfolds', hSettled'⟩
    have hVisits' :=
      hUnfolds'.countsArrivals.visitsTo_eq hSettled' hUncut' a
    rw [hRun] at hVisits'
    rw [hVisits', hVisits a, arrivals_append, hWaiting,
      arrivals_eq_nil, List.append_nil]
    intro x hMem
    refine (hInner hMem).imp_right fun hInner => ?_
    refine ⟨hInner, ?_⟩
    rintro b rfl
    exact hStays b hMem

/-
  A story that comes back to its choices, gets stuck there
  twice, and is moved away and back before it goes on: its
  start has been visited three times.
-/
theorem visits_are_arrivals_hub :
    ∃ story h s,
      Story.read "== hub\n* Once -> hub\n== den\nHi\n" =
          .ok story ∧
        History story.outline h s ∧ .cut ∉ h ∧
        s.memory.visitsTo story.outline.start = 3 ∧
        (arrivals (some story.outline.start) h).count
          story.outline.start = 3 := by
  have hCheck :
      (match
        Story.read "== hub\n* Once -> hub\n== den\nHi\n" with
        | .error _ => false
        | .ok story =>
            let o := story.outline
            let s₀ := State.start o 0
            let s₁ := ((resume o 9).runFrom s₀).2
            let s₂ := ((choose 0).runFrom s₁).2
            let s₃ := ((resume o 9).runFrom s₂).2
            let s₄ := ((resume o 9).runFrom s₃).2
            let s₅ := ((moveTo o "den" none).runFrom s₄).2
            let s₆ := ((moveTo o "hub" none).runFrom s₅).2
            let s₇ := ((resume o 9).runFrom s₆).2
            let h := [] ++ resumeHistory o 9 s₀ ++
              chooseHistory 0 s₁ ++ resumeHistory o 9 s₂ ++
              resumeHistory o 9 s₃ ++
              moveHistory o "den" none ++
              moveHistory o "hub" none ++ resumeHistory o 9 s₆
            (h.all fun x => !(x matches .cut)) &&
              s₇.memory.visitsTo o.start = 3) = true := by
    decide +kernel
  cases hRead :
      Story.read "== hub\n* Once -> hub\n== den\nHi\n" with
  | error e =>
      rw [hRead] at hCheck
      cases hCheck
  | ok story =>
      rw [hRead] at hCheck
      simp only [Bool.and_eq_true, decide_eq_true_eq] at hCheck
      obtain ⟨h, s, hHistory, hAll, hThree⟩ :
          ∃ h s, History story.outline h s ∧
            (h.all fun x => !(x matches .cut)) = true ∧
            s.memory.visitsTo story.outline.start = 3 :=
        ⟨_, _, ((((((History.start 0).resume 9).choose
          0).resume 9).resume 9).moveTo "den" none).moveTo
            "hub" none |>.resume 9, hCheck⟩
      have hUncut : .cut ∉ h := fun hCut =>
        nomatch List.all_eq_true.mp hAll .cut hCut
      have hCount :=
        (visits_are_arrivals hRead hHistory hUncut).1
          story.outline.start
      rw [hThree] at hCount
      exact ⟨story, h, s, rfl, hHistory, hUncut, hThree,
        Int.ofNat_inj.mp hCount.symm⟩

end BranchingStory
