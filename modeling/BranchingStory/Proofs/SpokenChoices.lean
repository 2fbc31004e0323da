import BranchingStory.Proofs.Alternatives
import BranchingStory.Proofs.Arrivals
import BranchingStory.Proofs.Echoes
import BranchingStory.Proofs.Mirroring
import BranchingStory.Proofs.Verbatim
import BranchingStory.Proofs.WrittenChoices

/-
  This file shows that a choice without brackets says what it
  showed.  The text of the choice is read twice, once to be
  shown and once to be said.  The two lines agree as long as no
  glue and no escaped blank at the end tells them apart, and as
  long as their alternatives, which are counted apart, have been
  shown as often.

  Key definitions include:
    * `State.Arrives`
    * `Choice.IsInStep`
    * `State.Says`

  Key theorems include:
    * `Outline.IsSound.leaf_unique`
    * `offersOf_renders`
    * `exists_arrival`
    * `says_of_echo`
    * `choices_say_what_they_showed`
-/

------------------------------------------------------------
-- Lines With Numbers Of Their Own
------------------------------------------------------------

namespace BranchingStory

variable {o : Outline}

/- The numbers of the alternatives in a line. -/
def ContentLine.numbers
    (l : ContentLine) : List Nat :=
  (alternativesIn l.fragments).map Prod.fst

/- A number that is not in a line is avoided there. -/
theorem ContentLine.avoids
    {l : ContentLine}
    {number : Nat}
    (hOther : number ∉ l.numbers) :
    Fragment.All (Fragment.Avoids number) l.fragments := by
  intro f hMem x hAlternative hSame
  refine hOther (List.mem_map.mpr ⟨x, ?_, hSame⟩)
  exact List.mem_filterMap.mpr ⟨f, hMem, hAlternative⟩

/- No two leaves of a story have a number in common. -/
theorem Outline.IsSound.leaf_unique
    (hSound : o.IsSound)
    {p q : Nat × Leaf}
    (hFirst : p ∈ o.leaves)
    (hSecond : q ∈ o.leaves)
    {number : Nat}
    (hNumber : number ∈ p.2.alternatives.map Prod.fst)
    (hNumber' : number ∈ q.2.alternatives.map Prod.fst) :
    p = q := by
  have hNodup := hSound.alternatives
  rw [alternativesOf, List.map_flatMap, List.Nodup,
    List.pairwise_flatMap] at hNodup
  have hSymmetric : Std.Symm fun p q : Nat × Leaf =>
      ∀ x ∈ p.2.alternatives.map Prod.fst,
        ∀ y ∈ q.2.alternatives.map Prod.fst, x ≠ y := by
    constructor
    intro p q hApart x hMem y hMem' hSame
    exact hApart y hMem' x hMem hSame.symm
  by_contra hOther
  exact hNodup.2.forall hFirst hSecond hOther number hNumber
    number hNumber' rfl

namespace Branch

variable {b b' : Branch}

/- The lines of two branches have no number in common. -/
theorem IsPlayable.display_apart
    (hSound : o.IsSound)
    (hFirst : b.IsPlayable o)
    (hSecond : b'.IsPlayable o)
    (hOther : b.id ≠ b'.id)
    {number : Nat}
    (hNumber : number ∈ b.choice.display.numbers) :
    number ∉ b'.choice.display.numbers := by
  intro hNumber'
  rw [ContentLine.numbers, ← Leaf.alternatives_choice]
    at hNumber hNumber'
  have hSame :=
    hSound.leaf_unique hFirst hSecond hNumber hNumber'
  exact hOther (congrArg Prod.fst hSame)

/- What a branch says has numbers of its own. -/
theorem IsPlayable.output_apart
    (hSound : o.IsSound)
    (hFirst : b.IsPlayable o)
    {id : Nat}
    {l : ContentLine}
    (hOutput : (id, .line l) ∈ o.leaves)
    {number : Nat}
    (hNumber : number ∈ l.numbers) :
    number ∉ b.choice.display.numbers := by
  intro hNumber'
  rw [ContentLine.numbers, ← Leaf.alternatives_line] at hNumber
  rw [ContentLine.numbers, ← Leaf.alternatives_choice]
    at hNumber'
  have hSame :=
    hSound.leaf_unique hOutput hFirst hNumber hNumber'
  cases hSame

end Branch

end BranchingStory

------------------------------------------------------------
-- Offers
------------------------------------------------------------

namespace BranchingStory

open Play

variable {o : Outline}

/-
  Whether an offer is what a branch showed, in a state that
  remembers the same as a given one and has shown the
  alternatives of the branch as often.
-/
def Offer.IsShown
    (s : State)
    (b : Branch)
    (x : Offer) : Prop :=
  x.branch = b.id ∧ ∃ s₁ s₂ text d,
    s₁.memory = s.memory ∧
    (∀ n ∈ b.choice.display.numbers,
      s₁.timesShown n = s.timesShown n) ∧
    (render b.choice.display.fragments).runFrom s₁ =
      (.ok (text, d), s₂) ∧
    x.text = trimString text

/-
  Branches are offered as they are shown on arrival, whatever
  is shown ahead of them.  Only the alternatives in what is
  shown are counted.
-/
theorem offersOf_renders
    (hSound : o.IsSound)
    {bs : List Branch}
    (hNodup : (bs.map Branch.id).Nodup)
    (hPlayable : ∀ b ∈ bs, b.IsPlayable o)
    (s : State) :
    Ends (offersOf bs) s
      (fun offers s' => s.Passes s' ∧
        (∀ n, (∀ b ∈ bs, n ∉ b.choice.display.numbers) →
          s'.timesShown n = s.timesShown n) ∧
        ∀ x ∈ offers, ∃ b ∈ bs, x.IsShown s b)
      (fun _ _ => True) := by
  induction bs generalizing s with
  | nil =>
      exact ⟨.refl s, fun n _ => rfl,
        fun x hNone => nomatch hNone⟩
  | cons b bs ih =>
      rw [List.forall_mem_cons] at hPlayable
      rcases hPlayable with ⟨hBranch, hRest⟩
      rw [List.map_cons, List.nodup_cons] at hNodup
      rcases hNodup with ⟨hOwn, hNodup⟩
      -- Where the branch is not offered, the others are.
      have hSkip :
          Ends (offersOf bs) s
            (fun offers s' => s.Passes s' ∧
              (∀ n, (∀ b' ∈ b :: bs,
                n ∉ b'.choice.display.numbers) →
                s'.timesShown n = s.timesShown n) ∧
              ∀ x ∈ offers, ∃ b' ∈ b :: bs, x.IsShown s b')
            (fun _ _ => True) := by
        refine (ih hNodup hRest s).mono ?_ fun _ _ _ => trivial
        rintro offers s' ⟨hPasses, hKept, hShown⟩
        refine ⟨hPasses, fun n hAvoided =>
          hKept n (List.forall_mem_cons.mp hAvoided).2, ?_⟩
        intro x hOffer
        rcases hShown x hOffer with ⟨b', hLater, hShownAs⟩
        exact ⟨b', List.mem_cons_of_mem _ hLater, hShownAs⟩
      rw [offersOf]
      split
      · exact hSkip
      · rw [ends_bind]
        refine (isAvailable_decides b s).mono ?_
          fun _ _ _ => trivial
        rintro available s' ⟨rfl, _⟩
        split
        · have hDisplay :=
            (render_shows (l := b.choice.display) hBranch
              List.mem_cons_self s').passes
          have hCounts (n : Nat)
              (hAvoided : n ∉ b.choice.display.numbers) :=
            renderWithin_keeps (ContentLine.avoids hAvoided)
              (Fragment.weightAll b.choice.display.fragments)
              s'
          change ∀ n, n ∉ b.choice.display.numbers →
            ((render b.choice.display.fragments).runFrom
              s').2.timesShown n = s'.timesShown n at hCounts
          rcases hRender :
              (render b.choice.display.fragments).runFrom s'
            with ⟨e | ⟨text, d⟩, s₂⟩
          · rw [ends_bind_error hRender]
            trivial
          · rw [hRender] at hDisplay hCounts
            rw [ends_bind_ok hRender, ends_bind]
            refine (ih hNodup hRest s₂).mono ?_
              fun _ _ _ => trivial
            rintro offers s₃ ⟨hPasses, hKept, hShown⟩
            refine ⟨hDisplay.trans hPasses, ?_, ?_⟩
            · intro n hAvoided
              rw [List.forall_mem_cons] at hAvoided
              exact (hKept n hAvoided.2).trans
                (hCounts n hAvoided.1)
            · intro x hOffer
              rcases List.mem_cons.mp hOffer with rfl | hLater
              · exact ⟨b, List.mem_cons_self, rfl, s', s₂, text,
                  d, rfl, fun _ _ => rfl, hRender, rfl⟩
              · rcases hShown x hLater with
                  ⟨b', hBranch', hId, s₁, s₄, text', d',
                    hMemory, hTimes, hText⟩
                refine ⟨b', List.mem_cons_of_mem _ hBranch',
                  hId, s₁, s₄, text', d',
                  hMemory.trans hDisplay.memory_eq, ?_, hText⟩
                intro n hNumber
                have hOther : b'.id ≠ b.id := fun hSame =>
                  hOwn (hSame ▸ List.mem_map_of_mem hBranch')
                exact (hTimes n hNumber).trans (hCounts n
                  ((hRest b' hBranch').display_apart hSound
                    hBranch hOther hNumber))
        · exact hSkip

end BranchingStory

------------------------------------------------------------
-- Arrivals
------------------------------------------------------------

namespace BranchingStory

open Play

variable {o : Outline}
variable {s arrived asked : State}
variable {offers : List Offer}

/-
  Whether a story that goes on arrives at a set of choices in
  one state, and presents offers there in another.
-/
def State.Arrives
    (o : Outline)
    (s arrived : State)
    (offers : List Offer)
    (asked : State) : Prop :=
  ∃ n ls, s.Walks o n ls arrived ∧
    (step o).runFrom arrived =
      (.ok ⟨none, some (.choices offers)⟩, asked)

/- A story that presents something stands at choices. -/
theorem Position.Moves.isAt_of_presenting
    {p p' : Position}
    {es : List Event}
    (hMoves : p.Moves o es p')
    (hReady : p.status = .ready)
    (hPresenting : p'.status = .presenting) :
    ∃ f fs id depth line branches,
      p.IsAt o f fs (.choices id depth line branches) := by
  cases hMoves with
  | present f fs id depth line branches _ hAt _ _ =>
      exact ⟨f, fs, id, depth, line, branches, hAt⟩
  | finish f items hFrames hBlock hEnd => cases hPresenting
  | conclude f fs i hAt hItem => cases hPresenting
  | stick f fs id depth line branches hAt =>
      exact ⟨f, fs, id, depth, line, branches, hAt⟩
  | take f fs id depth line branches b hAt hBranch =>
      exact ⟨f, fs, id, depth, line, branches, hAt⟩
  | enter stitch hFrames hStitch =>
      rw [hReady] at hPresenting
      cases hPresenting
  | leave f g fs items hFrames hBlock hEnd =>
      rw [hReady] at hPresenting
      cases hPresenting
  | pass f fs i hAt hItem =>
      rw [hReady] at hPresenting
      cases hPresenting
  | divert f fs i a hAt hItem hAddress =>
      rw [hReady] at hPresenting
      cases hPresenting

/- So does one that asks for a choice after a step. -/
theorem Position.Steps.isAt_of_prompt?
    (hSteps : s.position.Steps o asked)
    (hReady : s.status = .ready)
    (hPrompt : some (.choices offers) = asked.prompt?) :
    ∃ f fs id depth line branches,
      s.position.IsAt o f fs
        (.choices id depth line branches) := by
  have hPresenting : asked.status = .presenting := by
    unfold State.prompt? at hPrompt
    split at hPrompt
    · cases hPrompt
    · next hStatus => exact hStatus
    · cases hPrompt
  rcases hSteps.moves with ⟨es, hMoves⟩
  exact hMoves.isAt_of_presenting hReady hPresenting

/- What is presented on arrival are the offers found there. -/
theorem offersOf_of_arriveAt
    {line : Nat}
    {branches : List Branch}
    {line? : Option RenderedLine}
    (hRun : (arriveAt line branches).runFrom arrived =
      (.ok ⟨line?, some (.choices offers)⟩, asked)) :
    line? = none ∧ ∃ s₁,
      (offersOf branches).runFrom arrived =
          (.ok offers, s₁) ∧
        asked = { s₁ with
          offers := offers
          status := .presenting } := by
  rcases runFrom_bind_ok.mp hRun with ⟨found, s₁, hFound, hRun⟩
  cases found with
  | cons x xs =>
      rcases runFrom_bind_ok.mp hRun with ⟨_, s₂, hSet, hRun⟩
      cases hSet
      cases hRun
      exact ⟨rfl, s₁, hFound, rfl⟩
  | nil =>
      rcases runFrom_bind_ok.mp hRun with ⟨b?, s₂, _, hRun⟩
      cases b? with
      | none =>
          rcases runFrom_bind_ok.mp hRun with ⟨_, _, _, hRun⟩
          cases hRun
      | some b =>
          rcases runFrom_bind_ok.mp hRun with ⟨_, _, _, hRun⟩
          cases hRun

/- A story that is followed up to choices arrives there. -/
theorem arrives_of_follow
    (hSound : o.IsSound)
    (hFits : s.Fits o)
    (hReady : s.status = .ready)
    {steps : Nat}
    {ls : List RenderedLine}
    (hRun : (follow o steps).runFrom s =
      (.ok (ls, .choices offers), asked)) :
    ∃ arrived, s.Arrives o arrived offers asked := by
  induction steps generalizing s ls with
  | zero => cases hRun
  | succ n ih =>
      rcases runFrom_bind_ok.mp hRun with
        ⟨⟨line?, prompt?⟩, s₁, hStep, hRest⟩
      have hEnds :=
        (step_ends hSound hFits.sound hFits.coherent
          hReady).of_ok hStep
      rcases hEnds with ⟨hSteps, hPrompt⟩
      cases prompt? with
      | some prompt =>
          cases hRest
          rcases hSteps.isAt_of_prompt? hReady hPrompt with
            ⟨f, fs, id, depth, line, branches, hAt⟩
          have hArrive := step_eq_arriveAt hFits.coherent hAt
          rw [hStep] at hArrive
          rcases offersOf_of_arriveAt hArrive.symm with
            ⟨rfl, _⟩
          exact ⟨s, 0, [], .stay hReady, hStep⟩
      | none =>
          have hReady₁ := State.ready_of_prompt? hPrompt.symm
          have hFits₁ :=
            hSteps.fits hSound.nodup hReady hFits
          rcases runFrom_bind_ok.mp hRest with
            ⟨⟨ls', prompt'⟩, s₂, hFollow, hLast⟩
          cases hLast
          rcases ih hFits₁ hReady₁ hFollow with
            ⟨arrived, m, ls'', hWalks, hPresents⟩
          exact ⟨arrived, m + 1, _,
            .step hReady hStep rfl hWalks, hPresents⟩

/- So does one that is resumed and asks for a choice. -/
theorem exists_arrival
    (hSound : o.IsSound)
    (hFits : s.Fits o)
    {steps : Nat}
    {out : List OutputLine}
    (hAsked : (resume o steps).runFrom s =
      (.ok (out, .choices offers), asked)) :
    ∃ arrived, s.Arrives o arrived offers asked := by
  have hReady : s.status = .ready := by
    unfold resume at hAsked
    rcases runFrom_bind_ok.mp hAsked with ⟨s', _, hGet, hRun⟩
    cases hGet
    split at hRun
    · cases hRun
    · cases hRun
    · next hStatus => exact hStatus
  rw [resume_eq_follow hReady] at hAsked
  rcases hFollow : (follow o steps).runFrom s with
    ⟨e | ⟨ls, prompt⟩, s'⟩
  · rw [hFollow] at hAsked
    cases hAsked
  · rw [hFollow] at hAsked
    cases hAsked
    exact arrives_of_follow hSound hFits hReady hFollow

end BranchingStory

------------------------------------------------------------
-- What Is Said
------------------------------------------------------------

namespace BranchingStory

open Play

variable {o : Outline}
variable {s : State}

/- Blanks that end a text are trimmed. -/
theorem trimString_append_of_isBlank
    {blanks : List Char}
    (hBlanks : ∀ c ∈ blanks, isBlank c = true)
    (s : String) :
    trimString (s ++ String.ofList blanks) = trimString s := by
  have hTrim (cs : List Char) :
      trim (cs ++ blanks) = trim cs := by
    induction cs with
    | nil =>
        rw [List.nil_append, trim, trimStart,
          List.dropWhile_eq_nil_iff.mpr hBlanks]
        rfl
    | cons c cs ih =>
        cases hFirst : isBlank c with
        | true =>
            rw [trim, List.cons_append, trimStart,
              List.dropWhile_cons_of_pos hFirst, trim,
              trimStart, List.dropWhile_cons_of_pos hFirst]
            exact ih
        | false =>
            rw [trim, List.cons_append, trimStart_cons hFirst,
              trim, trimStart_cons hFirst, ← List.cons_append,
              trimEnd_append_of_isBlank hBlanks]
  rw [trimString, String.toList_append, String.toList_ofList,
    hTrim, trimString]

/-
  Whether a story says a text as soon as it goes on: the next
  line that it comes to is the text with blanks around it, and
  whatever it tells up to the next prompt begins with that line.
-/
def State.Says
    (o : Outline)
    (s : State)
    (text : String) : Prop :=
  ∃ l, trimString l.text = text ∧
    (∃ prompt s',
      (step o).runFrom s = (.ok ⟨some l, prompt⟩, s')) ∧
    ∀ steps out prompt s',
      (resume o steps).runFrom s = (.ok (out, prompt), s') →
        ∃ ls, out = joinLines (l :: ls)

/- A divert that leads somewhere is followed without a fault. -/
theorem followDivert_leads
    (hSound : o.IsSound)
    {d? : Option Divert}
    (hLeads : ∀ d, d? = some d → d.Leads o)
    (hFits : s.memory.Fits o o.IsPath) :
    Ends (followDivert d?) s (fun _ _ => True)
      (fun _ _ => False) := by
  cases d? with
  | none => trivial
  | some d =>
      rw [followDivert, ends_bind]
      refine (divertPlace?_ends hSound (hLeads d rfl)
        hFits).mono ?_ fun _ _ hNever => hNever
      rintro a? s' ⟨rfl, _⟩
      cases a? with
      | none => trivial
      | some a => trivial

/- The first line of what is told is that of the first step. -/
theorem exists_lines_of_resume
    (hReady : s.status = .ready)
    {l : RenderedLine}
    {prompt? : Option Prompt}
    {s₁ : State}
    (hStep : (step o).runFrom s = (.ok ⟨some l, prompt?⟩, s₁))
    {steps : Nat}
    {out : List OutputLine}
    {prompt : Prompt}
    {s' : State}
    (hRun : (resume o steps).runFrom s =
      (.ok (out, prompt), s')) :
    ∃ ls, out = joinLines (l :: ls) := by
  rw [resume_eq_follow hReady] at hRun
  cases steps with
  | zero => cases hRun
  | succ n =>
      rw [follow, runFrom_bind, hStep] at hRun
      cases prompt? with
      | some prompt' =>
          cases hRun
          exact ⟨[], rfl⟩
      | none =>
          simp only at hRun
          rw [runFrom_bind] at hRun
          rcases hRest : (follow o n).runFrom s₁ with
            ⟨e | ⟨ls, prompt'⟩, s₂⟩
          · rw [hRest] at hRun
            cases hRun
          · rw [hRest] at hRun
            cases hRun
            exact ⟨ls, rfl⟩

/- A story that stands at a line says what is rendered of it. -/
theorem says_of_line
    (hSound : o.IsSound)
    (hFits : s.Fits o)
    (hReady : s.status = .ready)
    {f : Frame}
    {fs : List Frame}
    {id : Nat}
    {l : ContentLine}
    (hAt : s.position.IsAt o f fs (.line id l))
    {text : String}
    {d : Option Divert}
    {s₁ : State}
    (hRender : (render l.fragments).runFrom
        { s with frames := f.past :: fs } =
      (.ok (text, d), s₁)) :
    s.Says o (trimString text) := by
  have hLeaf := hFits.coherent.leaf_mem hAt
  have hPlayable :=
    hSound.arePlayable hLeaf (l := l) List.mem_cons_self
  have hPast : { s with frames := f.past :: fs }.IsSound o :=
    hFits.sound.withPosition
      ⟨s.location, s.status, f.past :: fs, s.offers⟩
  rcases (render_stays hSound hPlayable _ hPast).of_ok hRender
    with ⟨hState, _, hLeads⟩
  have hEnds :
      Ends (emit l) { s with frames := f.past :: fs }
        (fun r _ => ∃ l' prompt, r = ⟨some l', prompt⟩ ∧
          trimString l'.text = trimString text)
        (fun _ _ => False) := by
    unfold emit
    rw [ends_bind_ok hRender]
    simp only [ends_bind]
    refine (followDivert_leads hSound hLeads hState.fits).mono
      ?_ fun _ _ hNever => hNever
    intro prompt s₂ _
    refine ⟨_, prompt, rfl, ?_⟩
    -- The gap ahead of a divert is a blank, too.
    have hGap : trimString (text ++ " ") = trimString text :=
      trimString_append_of_isBlank
        (List.forall_mem_singleton.mpr rfl) text
    dsimp only
    split
    · exact hGap
    · rw [String.append_empty]
  have hStep := runFrom_step hFits.coherent hAt rfl
  rw [execute] at hStep
  rcases hRun : (emit l).runFrom
      { s with frames := f.past :: fs } with ⟨e | r, s₂⟩
  · exact (hEnds.of_error hRun).elim
  · rcases hEnds.of_ok hRun with ⟨l', prompt, rfl, hText⟩
    rw [hRun] at hStep
    exact ⟨l', hText, ⟨prompt, s₂, hStep⟩,
      fun _ _ _ _ => exists_lines_of_resume hReady hStep⟩

end BranchingStory

------------------------------------------------------------
-- Choices Told As Shown
------------------------------------------------------------

namespace BranchingStory

open Play

variable {o : Outline}
variable {s arrived asked : State}

/-
  Whether the alternatives of a choice show the same in what it
  shows and in what it says: none of them is a shuffle, and each
  has been shown as often there as here.
-/
structure Choice.IsInStep
    (s : State)
    (c : Choice) : Prop where
  steady : ∀ f ∈ Fragment.walkAll c.display.fragments,
    f.isShuffle = false
  shown :
    c.output.numbers.map (fun n => s.timesShown n) =
      c.display.numbers.map fun n => s.timesShown n

/- Whether they are can be found out. -/
instance
    (s : State)
    (c : Choice) : Decidable (c.IsInStep s) :=
  decidable_of_iff
    ((∀ f ∈ Fragment.walkAll c.display.fragments,
        f.isShuffle = false) ∧
      c.output.numbers.map (fun n => s.timesShown n) =
        c.display.numbers.map fun n => s.timesShown n)
    ⟨fun hBoth => ⟨hBoth.1, hBoth.2⟩,
      fun hInStep => ⟨hInStep.steady, hInStep.shown⟩⟩

/- What echoes a line has the larger numbers. -/
theorem Fragment.Echo.numbers
    {k : Nat}
    {l l' : ContentLine}
    (hEcho : Fragment.Echo k l.fragments l'.fragments) :
    l'.numbers = l.numbers.map (· + k) := by
  rcases hEcho with
    ⟨body, last, blanks, tail, hShown, hTold, _, hTail⟩
  have hNone : alternativesIn tail = [] := by
    rw [alternativesIn, List.filterMap_eq_nil_iff]
    clear hTold
    induction tail with
    | nil =>
        intro f hMem
        cases hMem
    | cons f tail ih =>
        rw [List.forall_mem_cons] at hTail
        rcases hTail with ⟨⟨d, rfl⟩, hTail⟩
        have hWalk :
            Fragment.walkAll (.divert d :: tail) =
              .divert d :: Fragment.walkAll tail := by
          simp [Fragment.walkAll, Fragment.walk]
        rw [hWalk, List.forall_mem_cons]
        exact ⟨rfl, ih hTail⟩
  rw [ContentLine.numbers, hTold, alternativesIn_append,
    alternativesIn_append, hNone, alternativesIn_shiftAll,
    alternativesIn_textFragment, List.append_nil,
    List.append_nil, ContentLine.numbers, hShown,
    alternativesIn_append, alternativesIn_textFragment,
    List.append_nil, List.map_map, List.map_map]
  rfl

/-
  A choice that is chosen says the text that it was offered
  with, if its output line echoes its display line and its
  alternatives are in step on arrival.
-/
theorem says_of_echo
    (hSound : o.IsSound)
    (hFits : arrived.Fits o)
    {f : Frame}
    {fs : List Frame}
    {id depth line : Nat}
    {branches : List Branch}
    (hAt : arrived.position.IsAt o f fs
      (.choices id depth line branches))
    {s₁ : State}
    (hPasses : arrived.Passes s₁)
    (hKept : ∀ n,
      (∀ b ∈ branches, n ∉ b.choice.display.numbers) →
        s₁.timesShown n = arrived.timesShown n)
    {offers : List Offer}
    (hAsked : asked =
      { s₁ with offers := offers, status := .presenting })
    (hWaits : asked.Fits o)
    {i : Nat}
    {x : Offer}
    (hOffer : offers[i]? = some x)
    {b : Branch}
    (hBranch : b ∈ branches)
    (hShown : x.IsShown arrived b)
    {k : Nat}
    (hEcho : Fragment.Echo k b.choice.display.fragments
      b.choice.output.fragments)
    (hInStep : b.choice.IsInStep arrived) :
    ∃ chosen, (choose i).runFrom asked = (.ok (), chosen) ∧
      chosen.Says o x.text := by
  rcases hShown with
    ⟨hId, s₂, s₃, text, d, hMemory, hTimes, hRender, hText⟩
  have hPlayable (b : Branch) (hMem : b ∈ branches) :=
    hFits.coherent.isPlayable hAt hMem
  have hFrames : asked.frames = f :: fs := by
    rw [hAsked]
    rcases hPasses with ⟨g, cursors, orders, rfl⟩
    exact hAt.1
  have hStatus : asked.status = .presenting := by
    rw [hAsked]
  have hOffer' : asked.offers[i]? = some x := by
    rw [hAsked]
    exact hOffer
  have hChoose :=
    runFrom_choose_offer hStatus hFrames hOffer'
  refine ⟨_, hChoose, ?_⟩
  have hChosen := ((choose_ends hSound i hWaits).of_ok
    hChoose).1
  -- The line that is said comes first in the branch.
  have hBlock := Outline.block?_branch hSound.nodup
    (hFits.coherent.branches_subset hAt hBranch)
  have hLine : Position.IsAt o
      ⟨asked.location, .ready,
        Position.framesInto x.branch f fs, []⟩
      ⟨x.branch, 0⟩ (f.past :: fs)
      (.line b.outputId b.choice.output) := by
    refine ⟨rfl, b.body, ?_, rfl⟩
    rw [hId]
    exact hBlock
  have hOutput : (b.outputId, .line b.choice.output) ∈
      o.leaves :=
    hChosen.coherent.leaf_mem hLine
  have hInStep' :
      s₂.IsInStep k (· ∈ b.choice.display.numbers)
        { asked.countChosen x.branch with
          offers := []
          status := .ready
          frames := Frame.past ⟨x.branch, 0⟩ ::
            f.past :: fs } := by
    constructor
    · rw [hMemory, ← hPasses.memory_eq, hAsked]
      rfl
    · intro n hNumber
      have hNumber' : n + k ∈ b.choice.output.numbers := by
        rw [hEcho.numbers]
        exact List.mem_map_of_mem hNumber
      have hApart := hKept (n + k) fun b' hMem =>
        (hPlayable b' hMem).output_apart hSound hOutput hNumber'
      have hSame := hInStep.shown
      rw [hEcho.numbers, List.map_map] at hSame
      have hBoth := List.map_inj_left.mp hSame n hNumber
      rw [hTimes n hNumber, ← hBoth]
      refine Eq.trans ?_ hApart
      rw [hAsked]
      rfl
  have hSteady :
      Fragment.All
        (Fragment.IsSteady (· ∈ b.choice.display.numbers))
        b.choice.display.fragments := by
    rintro g hMem mode items number rfl
    refine ⟨fun hMode => ?_, ?_⟩
    · subst hMode
      cases hInStep.steady _ hMem
    · exact List.mem_map.mpr ⟨(number, items.length),
        List.mem_filterMap.mpr ⟨_, hMem, rfl⟩, rfl⟩
  rcases render_echo hEcho hSteady hInStep' hRender with
    ⟨blanks, d', s₄, hRender', hBlanks⟩
  rw [hText, ← trimString_append_of_isBlank hBlanks text]
  exact says_of_line hSound hChosen rfl hLine hRender'

/-
  A choice without brackets says what it showed.  Wherever a
  story that can be read asks for a choice, it has arrived at a
  set of choices, and what it offers are choices of the script.
  If the body that such a choice is written as has no brackets,
  its text is told as it is shown, and its alternatives were in
  step on arrival, then to choose it at once makes the story say
  the text that was offered.
-/
theorem choices_say_what_they_showed
    {source : String}
    {story : Story}
    (hRead : Story.read source = .ok story)
    (hReachable : Reachable story.outline s)
    {steps : Nat}
    {out : List OutputLine}
    {offers : List Offer}
    (hAsked : (resume story.outline steps).runFrom s =
      (.ok (out, .choices offers), asked)) :
    (∃ arrived,
      s.Arrives story.outline arrived offers asked) ∧
    ∀ arrived, s.Arrives story.outline arrived offers asked →
      ∀ (i : Nat) x, offers[i]? = some x →
        ∃ b ∈ story.outline.branches, b.id = x.branch ∧
          (∃ ls d, (classifyScript source).run ⟨[], 0⟩ =
              .ok (ls, d) ∧
            ∃ l ∈ ls, b.choice.IsWrittenAs l.text.toList) ∧
          ∀ body, b.choice.IsWrittenAs body →
            '[' ∉ body → ']' ∉ body →
            IsToldAsShown (choiceWording body) →
            b.choice.IsInStep arrived →
              ∃ chosen,
                (choose i).runFrom asked = (.ok (), chosen) ∧
                  chosen.Says story.outline x.text := by
  have hSound := Story.isSound_of_read hRead
  have hFits := hReachable.fits hSound
  refine ⟨exists_arrival hSound hFits hAsked, ?_⟩
  rintro arrived ⟨n, ls, hWalks, hStep⟩ i x hOffer
  have hArrived := hWalks.fits hSound hFits
  have hWaits :=
    ((resume_ends hSound steps hFits).of_ok hAsked).1
  rcases (step_ends hSound hArrived.sound hArrived.coherent
      hWalks.ready).of_ok hStep with ⟨hSteps, hPrompt⟩
  rcases hSteps.isAt_of_prompt? hWalks.ready hPrompt with
    ⟨f, fs, id, depth, line, branches, hAt⟩
  rw [step_eq_arriveAt hArrived.coherent hAt] at hStep
  rcases offersOf_of_arriveAt hStep with ⟨_, s₁, hOffers, hSame⟩
  have hPlayable (b : Branch) (hMem : b ∈ branches) :=
    hArrived.coherent.isPlayable hAt hMem
  rcases hArrived.coherent.item_mem hAt with
    ⟨items, hBlock, hItem⟩
  rcases (offersOf_renders hSound
      (Outline.nodup_branches_block hSound.nodup hBlock hItem)
      hPlayable arrived).of_ok hOffers with
    ⟨hPasses, hKept, hShown⟩
  rcases hShown x (List.mem_of_getElem? hOffer) with
    ⟨b, hBranch, hShownAs⟩
  refine ⟨b, hArrived.coherent.branches_subset hAt hBranch,
    hShownAs.1.symm, ?_, ?_⟩
  · exact Story.exists_line_of_choice hRead
      (hPlayable b hBranch)
  · intro body hWritten hOpen hClose hTold hInStep
    rcases hWritten with
      ⟨number, sticky, d, d', written, tags, o, knot, hBody,
        _, hChoice⟩
    rcases readChoice_echo hOpen hClose hTold hBody with
      ⟨k, hEcho⟩
    have hEcho' : Fragment.Echo k b.choice.display.fragments
        b.choice.output.fragments := by
      rw [hChoice]
      exact hEcho.resolve o knot
    exact says_of_echo hSound hArrived hAt hPasses hKept hSame
      hWaits hOffer hBranch hShownAs hEcho' hInStep

/- A script of a line and a choice that is read in full. -/
def greetingScript : String :=
  "VAR n = 2\nHi\n* \x7bn > 1\x7d Say " ++
    "\x7bhi|ho\x7d \x7bn\x7d -> END\n"

/-
  What is looked for in the story of the script: after two steps
  it has told its line, and it offers its choice in step.
-/
def greetsInStep
    (o : Outline) : Bool :=
  ((State.start o 0).walk? o 2).any fun r =>
    ((step o).runFrom r.2).1.toOption.any (fun p =>
        p.line.isNone &&
          p.prompt = some (.choices [⟨4, "Say hi 2", []⟩])) &&
      o.branches.all fun b => b.choice.IsInStep r.2

/- What is looked for in the lines of the script. -/
def ScriptLine.isToldAsShown
    (l : ScriptLine) : Bool :=
  '[' ∉ l.text.toList && ']' ∉ l.text.toList &&
    IsToldAsShown (choiceWording l.text.toList)

/- The choice of the script says the text that it shows. -/
theorem choices_say_what_they_showed_greeting :
    ∃ story out asked chosen,
      Story.read greetingScript = .ok story ∧
      (resume story.outline 9).runFrom
          (.start story.outline 0) =
        (.ok (out, .choices [⟨4, "Say hi 2", []⟩]), asked) ∧
      (choose (0 : Nat)).runFrom asked = (.ok (), chosen) ∧
      chosen.Says story.outline "Say hi 2" := by
  have hCheck :
      ((Story.read greetingScript).toOption.any fun story =>
        greetsInStep story.outline) = true := by
    decide +kernel
  have hLines :
      ((classifyScript greetingScript).run
          ⟨[], 0⟩).toOption.any
        (fun r => r.1.all ScriptLine.isToldAsShown) = true := by
    decide +kernel
  rcases exists_ok_of_any hCheck with ⟨story, hRead, hGreets⟩
  rcases (Option.any_eq_true _ _).mp hGreets with
    ⟨⟨ls, arrived⟩, hWalk, hBoth⟩
  rw [Bool.and_eq_true] at hBoth
  rcases hBoth with ⟨hPresents, hInStep⟩
  rcases hStep : (step story.outline).runFrom arrived with
    ⟨r, asked⟩
  rw [hStep] at hPresents
  rcases exists_ok_of_any hPresents with
    ⟨⟨line, prompt⟩, rfl, hYields⟩
  simp only [Bool.and_eq_true, Option.isNone_iff_eq_none,
    decide_eq_true_eq] at hYields
  rcases hYields with ⟨rfl, rfl⟩
  have hWalks := State.walks_of_walk? hWalk
  have hAsked :
      (resume story.outline 9).runFrom
          (.start story.outline 0) =
        (.ok (joinLines ls, .choices [⟨4, "Say hi 2", []⟩]),
          asked) :=
    resume_of_prompt hWalks (by decide) hStep
  rcases (choices_say_what_they_showed hRead (.start 0)
      hAsked).2 arrived ⟨2, ls, hWalks, hStep⟩ 0 _ rfl with
    ⟨b, hBranch, _, ⟨lines, d, hRun, l, hLine, hWritten⟩, hSays⟩
  rw [hRun] at hLines
  have hTold := List.all_eq_true.mp hLines l hLine
  simp only [ScriptLine.isToldAsShown, Bool.and_eq_true,
    decide_eq_true_eq] at hTold
  have hOwn := List.all_eq_true.mp hInStep b hBranch
  rw [decide_eq_true_eq] at hOwn
  rcases hSays _ hWritten hTold.1.1 hTold.1.2 hTold.2 hOwn with
    ⟨chosen, hChosen, hSaid⟩
  exact ⟨story, _, asked, chosen, hRead, hAsked, hChosen, hSaid⟩

/- A script of a choice whose text ends in glue. -/
def gluedChoiceScript : String :=
  "* Hello <>\n"

/-
  What is looked for in the story of the script: it offers its
  choice with the glue and tells it without.
-/
def tellsLessThanShown
    (o : Outline) : Bool :=
  let asked := (resume o 9).runFrom (.start o 0)
  let chosen := (choose (0 : Nat)).runFrom asked.2
  let told := (resume o 9).runFrom chosen.2
  asked.1.toOption.any (fun r =>
      r = ([], .choices [⟨3, "Hello <>", []⟩])) &&
    chosen.1.toOption.any (fun _ => true) &&
      told.1.toOption.any fun r =>
        r = ([⟨"Hello\n", []⟩], .done)

/- The choice shows the glue, and does not say it. -/
theorem glued_choices_say_less :
    ∃ story asked chosen told,
      Story.read gluedChoiceScript = .ok story ∧
      (resume story.outline 9).runFrom
          (.start story.outline 0) =
        (.ok ([], .choices [⟨3, "Hello <>", []⟩]), asked) ∧
      (choose (0 : Nat)).runFrom asked = (.ok (), chosen) ∧
      (resume story.outline 9).runFrom chosen =
        (.ok ([⟨"Hello\n", []⟩], .done), told) := by
  have hCheck :
      ((Story.read gluedChoiceScript).toOption.any
        fun story => tellsLessThanShown story.outline) =
          true := by
    decide +kernel
  rcases exists_ok_of_any hCheck with ⟨story, hRead, hTells⟩
  simp only [tellsLessThanShown, Bool.and_eq_true] at hTells
  rcases hTells with ⟨⟨hAsked, hChosen⟩, hTold⟩
  rcases exists_ok_of_any hAsked with ⟨r, hAsked, hOffers⟩
  rcases exists_ok_of_any hChosen with ⟨⟨⟩, hChosen, _⟩
  rcases exists_ok_of_any hTold with ⟨r', hTold, hLines⟩
  rw [of_decide_eq_true hOffers] at hAsked
  rw [of_decide_eq_true hLines] at hTold
  exact ⟨story, _, _, _, hRead, Prod.ext hAsked rfl,
    Prod.ext hChosen rfl, Prod.ext hTold rfl⟩

end BranchingStory
