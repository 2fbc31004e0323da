import BranchingStory.Proofs.Changes
import BranchingStory.Proofs.NumericFaults

/-
  This file follows a session of the player.  As long as the
  user loads nothing, the player shows a story that it came to
  by playing, asks what the story asks, and ends the session
  with a farewell, unless a number of the story stops it or a
  slot can not be written.

  Key definitions include:
    * `Phase.Plays`
    * `Command.IsInRange`

  Key theorems include:
    * `Command.isInRange_of_ofLine`
    * `Player.proceed_plays`
    * `Player.feed_plays`
    * `only_numbers_stop_stories`
-/

------------------------------------------------------------
-- Sessions
------------------------------------------------------------

namespace BranchingStory

/- Whether a game is in a state that its story can come to. -/
structure Game.IsOf
    (story : Story)
    (g : Game) : Prop where
  same : g.story = story
  reachable : Reachable story.outline g.state

/-
  Where a session with a story can be: it waits with what the
  story asks in a state that it can come to, it has ended well,
  or it was stopped by a number or a slot.
-/
inductive Phase.Plays
    (story : Story) : Phase → Prop where
  | pausing
      {ps : List String}
      {g : Game}
      {prompt : Prompt}
      (hGame : g.IsOf story)
      (hPrompt : g.state.prompt? = some prompt) :
      Plays story (.pausing ps g prompt)
  | commanding
      {g : Game}
      {offers : List Offer}
      (hGame : g.IsOf story)
      (hPrompt : g.state.prompt? = some (.choices offers)) :
      Plays story (.commanding g offers)
  | closed : Plays story (.closed 0)
  | outOfHand
      {s : State}
      {e : PlayError}
      (hReachable : Reachable story.outline s)
      (hNumber : e.IsNumberFault story.outline s.memory) :
      Plays story (.stopped (.play e))
  | unsaved
      {g : Game}
      {slot : Int}
      {e : SlotError}
      {files files' : FileTree}
      (hGame : g.IsOf story)
      (hWrite :
        (g.slots.write slot (g.state.save "")).run files =
          (.error e, files')) :
      Plays story (.stopped (.slot e))

/-
  Whether the numbers in a command are in range: a choice is
  one of some offers, and a slot is one of those there are.
-/
def Command.IsInRange
    (offered : Nat) : Command → Prop
  | .quit => True
  | .save slot => 1 ≤ slot ∧ slot ≤ slotCount
  | .load slot => 1 ≤ slot ∧ slot ≤ slotCount
  | .choose index => index < offered

/- The number of a slot is read only if there is the slot. -/
theorem Command.range_of_readSlot
    {word argument : List Char}
    {slot : Int}
    (hRead : readSlot word argument = .ok slot) :
    1 ≤ slot ∧ slot ≤ slotCount := by
  rw [readSlot] at hRead
  split at hRead
  · cases hRead
  · split at hRead
    · next hRange =>
        cases hRead
        exact hRange
    · cases hRead

/- The numbers in a command that is read are in range. -/
theorem Command.isInRange_of_ofLine
    {offered : Nat}
    {line : String}
    {c : Command}
    (hLine : ofLine offered line = .ok c) :
    c.IsInRange offered := by
  rw [ofLine] at hLine
  dsimp only at hLine
  split at hLine
  · cases hLine
    trivial
  · split at hLine
    · rcases except_map_ok.mp hLine with ⟨slot, hSlot, rfl⟩
      exact range_of_readSlot hSlot
    · split at hLine
      · rcases except_map_ok.mp hLine with ⟨slot, hSlot, rfl⟩
        exact range_of_readSlot hSlot
      · rw [readChoice] at hLine
        split at hLine
        · cases hLine
        · next n _ =>
            split at hLine
            · cases hLine
              change (n - 1).toNat < offered
              omega
            · cases hLine

/-
  Whether a command loads nothing, and chooses one of a number
  of offers if it chooses.
-/
def Command.IsPlain
    (offered : Nat) : Command → Prop
  | .choose index => index < offered
  | .load _ => False
  | _ => True

namespace Player

variable {story : Story}
variable {g : Game}
variable {prompt : Prompt}
variable {offers : List Offer}

/- A prompt is shown, and a command asked for if need be. -/
theorem present_plays
    (hGame : g.IsOf story)
    (hPrompt : g.state.prompt? = some prompt)
    (p : Player) :
    (p.present g prompt).phase.Plays story := by
  unfold present
  cases prompt with
  | done => exact .closed
  | choices offers => exact .commanding hGame hPrompt

/- The paragraphs before a prompt are shown. -/
theorem unfold_plays
    (hGame : g.IsOf story)
    (hPrompt : g.state.prompt? = some prompt)
    (ps : List String)
    (p : Player) :
    (p.unfold g prompt ps).phase.Plays story := by
  unfold Player.unfold
  dsimp only
  split
  · exact present_plays hGame hPrompt _
  · exact .pausing hGame hPrompt

/-
  The story goes on up to its next prompt, unless it is stopped
  by a number.
-/
theorem proceed_plays
    (hSound : story.outline.IsSound)
    (hGame : g.IsOf story)
    (p : Player) :
    (p.proceed g).phase.Plays story := by
  rcases hGame with ⟨rfl, hReachable⟩
  unfold proceed
  split
  · next prompt hPrompt =>
      exact present_plays ⟨rfl, hReachable⟩ hPrompt _
  · have hFits := hReachable.fits hSound
    have hNext := hReachable.resume p.setting.steps
    split
    · next ls prompt s hRun =>
        have hEnds := resume_ends hSound p.setting.steps hFits
        rw [hRun] at hNext
        have hGame : Game.IsOf g.story { g with state := s } :=
          ⟨rfl, hNext⟩
        exact unfold_plays hGame (hEnds.of_ok hRun).2.symm _ _
    · next e s hRun =>
        rw [hRun] at hNext
        split
        · exact .closed
        · next hEscapes =>
            exact .outOfHand hNext
              (resume_numberFault hSound hFits hRun
                (Bool.eq_false_iff.mpr hEscapes))

/- A choice that is on offer is taken. -/
theorem runFrom_choose
    {o : Outline}
    {s : State}
    (hFits : s.Fits o)
    (hPrompt : s.prompt? = some (.choices offers))
    {index : Nat}
    (hIndex : index < offers.length) :
    ∃ s', (BranchingStory.choose index).runFrom s =
      (.ok (), s') := by
  rcases State.presenting_of_prompt? hPrompt with
    ⟨hStatus, rfl⟩
  rcases
      hFits.coherent.branch_of_offer (List.getElem_mem hIndex) with
    ⟨f, fs, id, depth, line, branches, b, hAt, _⟩
  exact ⟨_, runFrom_choose_offer hStatus hAt.1
    (List.getElem?_eq_getElem hIndex)⟩

/- A command that loads nothing keeps the session going. -/
theorem obey_plays
    (hSound : story.outline.IsSound)
    (hGame : g.IsOf story)
    (hPrompt : g.state.prompt? = some (.choices offers))
    {c : Command}
    (hCommand : c.IsPlain offers.length)
    (p : Player) :
    (p.obey g offers c).phase.Plays story := by
  cases c with
  | quit => exact .closed
  | save slot =>
      rw [obey, saveTo]
      cases hWrite :
          (g.slots.write slot (g.state.save "")).run p.files with
      | mk r files =>
          cases r with
          | error e => exact .unsaved hGame hWrite
          | ok u => exact .commanding hGame hPrompt
  | load slot => exact hCommand.elim
  | choose index =>
      rcases
          runFrom_choose (hGame.reachable.fits hSound) hPrompt
            hCommand with
        ⟨s, hRun⟩
      have hNext := hGame.reachable.choose index
      rw [hRun] at hNext
      rw [obey]
      simp only [hRun]
      have hGame' : Game.IsOf story { g with state := s } :=
        ⟨hGame.same, hNext⟩
      exact proceed_plays hSound hGame' p

/- A line that loads nothing holds a plain command, if any. -/
theorem isPlain_of_ofLine
    {offered : Nat}
    {line : String}
    {c : Command}
    (hLine : Command.ofLine offered line = .ok c)
    (hLoad : ∀ slot, c ≠ .load slot) :
    c.IsPlain offered := by
  cases c with
  | choose index => exact Command.isInRange_of_ofLine hLine
  | load slot => exact absurd rfl (hLoad slot)
  | quit => trivial
  | save slot => trivial

/- A line that loads nothing keeps the session going. -/
theorem feed_plays
    (hSound : story.outline.IsSound)
    {p : Player}
    (hPlays : p.phase.Plays story)
    {line : String}
    (hLine : ∀ offered slot,
      Command.ofLine offered line ≠ .ok (.load slot)) :
    (p.feed line).phase.Plays story := by
  unfold feed
  generalize hPhase : p.phase = phase at hPlays
  cases hPlays with
  | pausing hGame hPrompt =>
      exact unfold_plays hGame hPrompt _ p
  | @commanding g offers hGame hPrompt =>
      dsimp only
      split
      · next c hCommand =>
          refine obey_plays hSound hGame hPrompt
            (isPlain_of_ofLine hCommand ?_) p
          rintro slot rfl
          exact hLine _ slot hCommand
      · exact .commanding hGame hPrompt
  | closed =>
      dsimp only
      rw [hPhase]
      exact .closed
  | outOfHand hReachable hNumber =>
      dsimp only
      rw [hPhase]
      exact .outOfHand hReachable hNumber
  | unsaved hGame hWrite =>
      dsimp only
      rw [hPhase]
      exact .unsaved hGame hWrite

/- A session in which nothing is loaded keeps going. -/
theorem run_plays
    (hSound : story.outline.IsSound)
    (lines : List String)
    (hLines : ∀ line ∈ lines, ∀ offered slot,
      Command.ofLine offered line ≠ .ok (.load slot))
    {p : Player}
    (hPlays : p.phase.Plays story) :
    (p.run lines).phase.Plays story := by
  induction lines generalizing p with
  | nil => exact hPlays
  | cons line lines ih =>
      rw [List.forall_mem_cons] at hLines
      exact ih hLines.2 (feed_plays hSound hPlays hLines.1)

/- A session begins with the story at its start. -/
theorem beginStory_plays
    (hSound : story.outline.IsSound)
    (path : FilePath)
    (p : Player) :
    (p.beginStory story path).phase.Plays story :=
  proceed_plays hSound
    ⟨rfl, Reachable.start p.setting.seed⟩ _

end Player

end BranchingStory

------------------------------------------------------------
-- Faults That Escape
------------------------------------------------------------

namespace BranchingStory

/-
  Whether the wording of a fault can be written.  The index of
  a choice may be too long for that.
-/
def PlayError.isTellable : PlayError → Bool
  | .invalidChoice index _ => isShortInt index
  | _ => true

/-
  Wherever a story that can be read comes to by playing, a
  choice is refused only by a fault that the story answers for.
  Going on is stopped by a foreseen fault, and one that the
  story does not answer for comes from its numbers: it has an
  expression that mixes an integer beyond the doubles with a
  double, divides an infinity with remainder, or is an integer
  too long to be written.  An expression fails so if and only
  if it performs such an operation.  A session of the player in
  which nothing is loaded always waits, ends well, or is stopped
  by such a number or by a slot that can not be written.
-/
theorem only_numbers_stop_stories
    {source : String}
    {story : Story}
    (hRead : Story.read source = .ok story) :
    (∀ s, Reachable story.outline s →
      (∀ index e s',
        (choose index).runFrom s = (.error e, s') →
          s' = s ∧ e.isOfStory = true ∧
            (isShortInt index = true → e.isTellable = true)) ∧
      ∀ steps e s',
        (resume story.outline steps).runFrom s =
            (.error e, s') →
          e.isForeseen = true ∧
            (e.isOfStory = false →
              e.IsNumberFault story.outline s'.memory)) ∧
    (∀ fault : EvalError, fault.isUnguarded = true →
      ∀ (e : Expr) m,
        e.eval m = .error fault ↔ e.Overreaches m fault) ∧
    ∀ path (p : Player) lines,
      (∀ line ∈ lines, ∀ offered slot,
        Command.ofLine offered line ≠ .ok (.load slot)) →
        ((p.beginStory story path).run lines).phase.Plays
          story := by
  have hSound := Story.isSound_of_read hRead
  refine ⟨?_, ?_, ?_⟩
  · intro s hReachable
    have hFits := hReachable.fits hSound
    constructor
    · intro index e s' hRun
      rcases (choose_ends hSound index hFits).of_error hRun with
        ⟨hSame, rfl | rfl⟩
      · exact ⟨hSame, rfl, fun _ => rfl⟩
      · exact ⟨hSame, rfl, fun hShort => hShort⟩
    · intro steps e s' hRun
      exact ⟨((resume_ends hSound steps hFits).of_error hRun).2,
        resume_numberFault hSound hFits hRun⟩
  · intro fault hUnguarded e m
    exact e.eval_unguarded_iff hUnguarded
  · intro path p lines hLines
    exact Player.run_plays hSound lines hLines
      (Player.beginStory_plays hSound path p)

/-
  A script whose integers grow beyond the doubles before a
  double is added to them.
-/
def overflowingScript : String :=
  "VAR n = 1000000000000\n~ n = n * n * n * n * n\n" ++
    "\x7bn * n * n * n * n * n + 0.5\x7d\n"

/- The script can be read, and its story stops at the sum. -/
theorem resume_overflowingScript :
    ∃ story s',
      Story.read overflowingScript = .ok story ∧
        (resume story.outline 9).runFrom
            (.start story.outline 0) =
          (.error (.evaluation .beyondFloatRange), s') := by
  have hCheck :
      ((Story.read overflowingScript).toOption.any fun story =>
        match ((resume story.outline 9).runFrom
            (.start story.outline 0)).1 with
        | .error e => e = .evaluation .beyondFloatRange
        | .ok _ => false) = true := by
    decide +kernel
  rcases exists_ok_of_any hCheck with ⟨story, hRead, hStops⟩
  cases hRun :
      (resume story.outline 9).runFrom
        (.start story.outline 0) with
  | mk r s' =>
      rw [hRun] at hStops
      cases r with
      | ok r => cases hStops
      | error e =>
          cases of_decide_eq_true hStops
          exact ⟨story, s', hRead, hRun⟩

/-
  The story of the script stops by a fault that comes from its
  numbers, and a session with it that is left at once keeps to
  what is said of sessions.
-/
theorem only_numbers_stop_stories_sum :
    ∃ story s',
      Story.read overflowingScript = .ok story ∧
        (resume story.outline 9).runFrom
            (.start story.outline 0) =
          (.error (.evaluation .beyondFloatRange), s') ∧
        (PlayError.evaluation .beyondFloatRange).IsNumberFault
          story.outline s'.memory ∧
        ∀ path (p : Player),
          ((p.beginStory story path).run ["quit"]).phase.Plays
            story := by
  rcases resume_overflowingScript with
    ⟨story, s', hRead, hRun⟩
  rcases only_numbers_stop_stories hRead with
    ⟨hFaults, _, hSessions⟩
  have hNumber :=
    ((hFaults _ (.start 0)).2 9 _ s' hRun).2 rfl
  refine ⟨story, s', hRead, hRun, hNumber, ?_⟩
  intro path p
  apply hSessions path p ["quit"]
  intro line hMem offered slot hLoad
  cases List.mem_singleton.mp hMem
  cases hLoad

/-
  Not every fault that stops a story is one that it answers
  for: an integer beyond the doubles escapes.
-/
theorem numbers_escape_stories :
    ¬ ∀ source story,
      Story.read source = .ok story →
        ∀ s, Reachable story.outline s →
          ∀ steps e s',
            (resume story.outline steps).runFrom s =
                (.error e, s') →
              e.isOfStory = true := by
  intro hAlways
  rcases resume_overflowingScript with
    ⟨story, s', hRead, hRun⟩
  have hOfStory :=
    hAlways _ story hRead _ (.start 0) 9 _ s' hRun
  cases hOfStory

end BranchingStory
