import BranchingStory.Proofs.Sessions
import BranchingStory.Proofs.StoredSaves

/-
  This file follows a player from line to line.  In every turn
  the story is asked for what it can do: it is resumed when it
  is ready, and one of the choices that it presents is chosen.
  A game that is loaded goes on where it was saved.

  Key definitions include:
    * `Player.GoesOn`
    * `Player.Turn`
    * `Player.Closes`
    * `Player.Shows`
    * `Player.IsInPlay`
    * `Player.saves?`
    * `Player.Session`

  Key theorems include:
    * `Player.goesOn_proceed`
    * `Player.Session.feed`
    * `Player.Session.run`
    * `Player.Session.feed_load`
    * `players_keep_to_protocol`
-/

------------------------------------------------------------
-- Going On
------------------------------------------------------------

namespace BranchingStory

namespace Player

/-
  How a player can go on with a game.  It presents what the
  story asks already.  Only a story that is ready is resumed:
  then the player shows what comes before the next prompt, or
  reports a fault that the story answers for, or is stopped by
  a number.
-/
inductive GoesOn
    (g : Game)
    (p : Player) : Player → Prop where
  | presents
      {prompt : Prompt}
      (hPrompt : g.state.prompt? = some prompt) :
      GoesOn g p (p.present g prompt)
  | resumes
      {ls : List OutputLine}
      {prompt : Prompt}
      {s : State}
      (hReady : g.state.status = .ready)
      (hRun :
        (resume g.story.outline p.setting.steps).runFrom
          g.state = (.ok (ls, prompt), s))
      (hPrompt : s.prompt? = some prompt) :
      GoesOn g p
        (p.unfold { g with state := s } prompt
          (paragraphs g.config.showTags ls))
  | reports
      {e : PlayError}
      {s : State}
      (hReady : g.state.status = .ready)
      (hRun :
        (resume g.story.outline p.setting.steps).runFrom
          g.state = (.error e, s))
      (hOfStory : e.isOfStory = true) :
      GoesOn g p
        ((p.say
          s!"\nThe story cannot continue: {e.message}").leave)
  | stops
      {e : PlayError}
      {s : State}
      (hReady : g.state.status = .ready)
      (hRun :
        (resume g.story.outline p.setting.steps).runFrom
          g.state = (.error e, s))
      (hNumber : e.IsNumberFault g.story.outline s.memory) :
      GoesOn g p (p.stop (.play e))

/- The player goes on like this with a state that fits. -/
theorem goesOn_proceed
    {g : Game}
    (hSound : g.story.outline.IsSound)
    (hFits : g.state.Fits g.story.outline)
    (p : Player) :
    p.GoesOn g (p.proceed g) := by
  unfold proceed
  split
  · next prompt hPrompt => exact .presents hPrompt
  · next hNone =>
      have hReady := State.ready_of_prompt? hNone
      split
      · next ls prompt s hRun =>
          have hEnds :=
            resume_ends hSound p.setting.steps hFits
          exact .resumes hReady hRun
            (hEnds.of_ok hRun).2.symm
      · next e s hRun =>
          split
          · next hOfStory => exact .reports hReady hRun hOfStory
          · next hEscapes =>
              exact .stops hReady hRun
                (resume_numberFault hSound hFits hRun
                  (Bool.eq_false_iff.mpr hEscapes))

end Player

end BranchingStory

------------------------------------------------------------
-- Turns
------------------------------------------------------------

namespace BranchingStory

namespace Player

/-
  What a player can do with a line while a story is played: it
  shows further paragraphs, asks again, quits, saves, tells that
  a slot is empty, goes on with the game in a slot, or goes on
  after a choice, which is one of those that the story presents.
  A player that is over does nothing.
-/
inductive Turn
    (p : Player)
    (line : String) : Player → Prop where
  | rests
      (hOver : p.isOver = true) :
      Turn p line p
  | turnsPage
      {ps : List String}
      {g : Game}
      {prompt : Prompt}
      (hPhase : p.phase = .pausing ps g prompt)
      (hPrompt : g.state.prompt? = some prompt) :
      Turn p line (p.unfold g prompt ps)
  | asksAgain
      {g : Game}
      {offers : List Offer}
      {reason : String}
      (hPhase : p.phase = .commanding g offers)
      (hLine :
        Command.ofLine offers.length line = .error reason) :
      Turn p line ((p.say reason).askCommand g offers)
  | quits
      {g : Game}
      {offers : List Offer}
      (hPhase : p.phase = .commanding g offers)
      (hLine : Command.ofLine offers.length line = .ok .quit) :
      Turn p line p.leave
  | saves
      {g : Game}
      {offers : List Offer}
      {slot : Int}
      {files : FileTree}
      (hPhase : p.phase = .commanding g offers)
      (hLine :
        Command.ofLine offers.length line = .ok (.save slot))
      (hWrite :
        (g.slots.write slot (g.state.save "")).run p.files =
          (.ok (), files)) :
      Turn p line
        (({ p with files := files }.say
          s!"Saved to slot {slot}.").askCommand g offers)
  | cannotSave
      {g : Game}
      {offers : List Offer}
      {slot : Int}
      {files : FileTree}
      (hPhase : p.phase = .commanding g offers)
      (hLine :
        Command.ofLine offers.length line = .ok (.save slot))
      (hLong : (g.state.save "").isWritable = false) :
      Turn p line
        ({ p with files := files }.stop (.slot .longInt))
  | findsNothing
      {g : Game}
      {offers : List Offer}
      {slot : Int}
      (hPhase : p.phase = .commanding g offers)
      (hLine :
        Command.ofLine offers.length line = .ok (.load slot))
      (hEmpty : g.slots.isTaken p.files slot = .ok false) :
      Turn p line
        ((p.say s!"Slot {slot} is empty.").askCommand g offers)
  | loads
      {g : Game}
      {offers : List Offer}
      {slot : Int}
      {payload : Json}
      {s : State}
      {p' : Player}
      (hPhase : p.phase = .commanding g offers)
      (hLine :
        Command.ofLine offers.length line = .ok (.load slot))
      (hSlot : g.slots.read p.files slot = .ok payload)
      (hRestored : restore g.story.outline payload = .ok s)
      (hGoesOn :
        (p.say s!"Loaded slot {slot}.").GoesOn
          { g with state := s } p') :
      Turn p line p'
  | chooses
      {g : Game}
      {offers : List Offer}
      {index : Nat}
      {s : State}
      {p' : Player}
      (hPhase : p.phase = .commanding g offers)
      (hLine :
        Command.ofLine offers.length line =
          .ok (.choose index))
      (hPresenting : g.state.status = .presenting)
      (hIndex : index < g.state.offers.length)
      (hRun :
        (choose index).runFrom g.state = (.ok (), s))
      (hGoesOn : p.GoesOn { g with state := s } p') :
      Turn p line p'

/-
  How a story can bring a player to an end: it has finished,
  a fault that it answers for is reported, or a number stops
  the player.
-/
inductive IsEndedBy
    (o : Outline) : Player → Prop where
  | finished
      {p : Player}
      {g : Game}
      (hFinished : g.state.status = .finished) :
      IsEndedBy o (p.present g .done)
  | reported
      {p : Player}
      {e : PlayError}
      (hOfStory : e.isOfStory = true) :
      IsEndedBy o
        ((p.say
          s!"\nThe story cannot continue: {e.message}").leave)
  | stopped
      {p : Player}
      {e : PlayError}
      {m : Memory}
      (hNumber : e.IsNumberFault o m) :
      IsEndedBy o (p.stop (.play e))

/-
  How a turn can bring a player to an end: the user quits, or
  the story ends.
-/
inductive Closes
    (o : Outline)
    (p : Player)
    (line : String) : Player → Prop where
  | quit
      {g : Game}
      {offers : List Offer}
      (hPhase : p.phase = .commanding g offers)
      (hLine : Command.ofLine offers.length line = .ok .quit) :
      Closes o p line p.leave
  | story
      {p' : Player}
      (hEnded : p'.IsEndedBy o) :
      Closes o p line p'

end Player

end BranchingStory

------------------------------------------------------------
-- Ends
------------------------------------------------------------

namespace BranchingStory

namespace Player

variable {g : Game}
variable {prompt : Prompt}
variable {p p' : Player}
variable {line : String}

/- A prompt ends nothing but a story that has finished. -/
theorem isEndedBy_of_present
    {o : Outline}
    (hPrompt : g.state.prompt? = some prompt)
    (hOver : (p.present g prompt).isOver = true) :
    (p.present g prompt).IsEndedBy o := by
  cases prompt with
  | choices offers =>
      unfold present at hOver
      cases hOver
  | done => exact .finished (State.finished_of_prompt? hPrompt)

/- Paragraphs end nothing but a story that has finished. -/
theorem isEndedBy_of_unfold
    {o : Outline}
    {ps : List String}
    (hPrompt : g.state.prompt? = some prompt)
    (hOver : (p.unfold g prompt ps).isOver = true) :
    (p.unfold g prompt ps).IsEndedBy o := by
  unfold Player.unfold at hOver ⊢
  dsimp only at hOver ⊢
  split at hOver
  · next hLast =>
      rw [if_pos hLast]
      exact isEndedBy_of_present hPrompt hOver
  · cases hOver

/- If the player does not go on, the story has ended. -/
theorem GoesOn.isEndedBy
    (hGoesOn : p.GoesOn g p')
    (hOver : p'.isOver = true) :
    p'.IsEndedBy g.story.outline := by
  cases hGoesOn with
  | presents hPrompt =>
      exact isEndedBy_of_present hPrompt hOver
  | resumes _ _ hPrompt =>
      exact isEndedBy_of_unfold hPrompt hOver
  | reports _ _ hOfStory => exact .reported hOfStory
  | stops _ _ hNumber => exact .stopped hNumber

end Player

end BranchingStory

------------------------------------------------------------
-- Players In Play
------------------------------------------------------------

namespace BranchingStory

/-
  Whether a game continues another: it has the same story,
  slots and settings, and a state that fits the story.
-/
structure Game.Continues
    (first g : Game) : Prop where
  story : g.story = first.story
  slots : g.slots = first.slots
  config : g.config = first.config
  fits : g.state.Fits first.story.outline

/- A game may go on with another state that fits. -/
theorem Game.Continues.withState
    {first g : Game}
    (hGame : first.Continues g)
    {s : State}
    (hFits : s.Fits first.story.outline) :
    first.Continues { g with state := s } :=
  ⟨hGame.story, hGame.slots, hGame.config, hFits⟩

namespace Player

/-
  Whether the screen of a player shows the offers of a game:
  they were presented last, and below them there are answers
  to lines only.
-/
inductive Shows
    (g : Game)
    (offers : List Offer) : Player → Prop where
  | presented
      (p : Player) :
      Shows g offers (p.present g (.choices offers))
  | answered
      {p : Player}
      (hShows : Shows g offers p)
      (files : FileTree)
      (answer : String) :
      Shows g offers
        (({ p with files := files }.say answer).askCommand g
          offers)

/-
  Whether a player plays a game that continues another: it
  waits with what the story asks in the state of the game, and
  shows the offers that it waits for, or it is over.
-/
inductive IsInPlay
    (first : Game)
    (p : Player) : Prop where
  | pausing
      {ps : List String}
      {g : Game}
      {prompt : Prompt}
      (hPhase : p.phase = .pausing ps g prompt)
      (hGame : first.Continues g)
      (hPrompt : g.state.prompt? = some prompt)
  | commanding
      {g : Game}
      {offers : List Offer}
      (hShows : p.Shows g offers)
      (hGame : first.Continues g)
      (hPrompt : g.state.prompt? = some (.choices offers))
  | ended
      (hOver : p.isOver = true)

variable {first g : Game}
variable {offers : List Offer}
variable {prompt : Prompt}
variable {p p' : Player}

/- A player that shows offers waits for a command. -/
theorem Shows.phase
    (hShows : p.Shows g offers) :
    p.phase = .commanding g offers := by
  cases hShows with
  | presented p => rfl
  | answered hShows files answer => rfl

/- A player that waits for a command shows the offers. -/
theorem IsInPlay.of_commanding
    (hInPlay : p.IsInPlay first)
    (hPhase : p.phase = .commanding g offers) :
    p.Shows g offers ∧ first.Continues g ∧
      g.state.prompt? = some (.choices offers) := by
  cases hInPlay with
  | pausing hOther _ _ =>
      rw [hPhase] at hOther
      cases hOther
  | commanding hShows hGame hPrompt =>
      have hSame := hShows.phase
      rw [hPhase] at hSame
      cases hSame
      exact ⟨hShows, hGame, hPrompt⟩
  | ended hOver =>
      rw [isOver, hPhase] at hOver
      cases hOver

/- A player is in play after a prompt. -/
theorem isInPlay_present
    (hGame : first.Continues g)
    (hPrompt : g.state.prompt? = some prompt)
    (p : Player) :
    (p.present g prompt).IsInPlay first := by
  cases prompt with
  | choices offers =>
      exact .commanding (.presented p) hGame hPrompt
  | done => exact .ended rfl

/- A player is in play after paragraphs. -/
theorem isInPlay_unfold
    (hGame : first.Continues g)
    (hPrompt : g.state.prompt? = some prompt)
    (ps : List String)
    (p : Player) :
    (p.unfold g prompt ps).IsInPlay first := by
  unfold Player.unfold
  dsimp only
  split
  · exact isInPlay_present hGame hPrompt _
  · exact .pausing rfl hGame hPrompt

/- A player is in play after it has gone on. -/
theorem GoesOn.isInPlay
    (hSound : first.story.outline.IsSound)
    (hGame : first.Continues g)
    (hGoesOn : p.GoesOn g p') :
    p'.IsInPlay first := by
  cases hGoesOn with
  | presents hPrompt => exact isInPlay_present hGame hPrompt p
  | resumes hReady hRun hPrompt =>
      rw [hGame.story] at hRun
      have hEnds :=
        resume_ends hSound p.setting.steps hGame.fits
      exact isInPlay_unfold
        (hGame.withState (hEnds.of_ok hRun).1) hPrompt _ p
  | reports _ _ _ => exact .ended rfl
  | stops _ _ _ => exact .ended rfl

/- To present a prompt changes no file. -/
theorem files_present
    (g : Game)
    (prompt : Prompt)
    (p : Player) :
    (p.present g prompt).files = p.files := by
  unfold present
  cases prompt <;> cases p.setting.showLocation <;> rfl

/- To show paragraphs changes no file. -/
theorem files_unfold
    (g : Game)
    (prompt : Prompt)
    (ps : List String)
    (p : Player) :
    (p.unfold g prompt ps).files = p.files := by
  unfold Player.unfold
  dsimp only
  split
  · exact files_present g prompt _
  · rfl

/- To go on with a game changes no file. -/
theorem GoesOn.files
    (hGoesOn : p.GoesOn g p') :
    p'.files = p.files := by
  cases hGoesOn with
  | presents _ => exact files_present g _ p
  | resumes _ _ _ => exact files_unfold _ _ _ p
  | reports _ _ _ => rfl
  | stops _ _ _ => rfl

end Player

end BranchingStory

------------------------------------------------------------
-- Sessions With Saves
------------------------------------------------------------

namespace BranchingStory

/-
  Whether a game can be saved and restored: its slots are those
  of a story below a directory and can be used, and a state is
  restored from the text of its save.
-/
structure Game.IsRestorable
    (base : FilePath)
    (stem : String)
    (first : Game) : Prop where
  slots : first.slots = .ofStory base stem slotCount
  usable : StoreIsUsable base stem slotCount
  sound : first.story.outline.IsSound
  restores : ∀ (s : State) savedAt,
    s.Fits first.story.outline →
      restore first.story.outline (s.save savedAt).sorted =
        .ok s.ordered

namespace Player

/- What a line saves and in which slot, if it saves. -/
def saves?
    (p : Player)
    (line : String) : Option (Int × State) :=
  match p.phase with
  | .commanding g offers =>
      match Command.ofLine offers.length line with
      | .ok (.save slot) => some (slot, g.state)
      | _ => none
  | _ => none

/- The saves in slots after a line, given those before it. -/
def savesAfter
    (p : Player)
    (line : String)
    (saved : Int → Option (String × State)) :
    Int → Option (String × State) :=
  match p.saves? line with
  | some (slot, s) => savesWith saved slot s
  | none => saved

/- Whether one of some lines saves in a slot. -/
def savesIn
    (slot : Int)
    (p : Player) : List String → Bool
  | [] => false
  | line :: lines =>
      (p.saves? line).any (fun x => x.1 = slot) ||
        (p.feed line).savesIn slot lines

/-
  Whether a player plays a game that continues another, and the
  slots hold saves of states that fit the story.
-/
structure Session
    (base : FilePath)
    (place : List String)
    (stem : String)
    (first : Game)
    (saved : Int → Option (String × State))
    (p : Player) : Prop where
  inPlay : p.IsInPlay first
  holds : p.files.HoldsSaves base place stem saved
  fits : ∀ slot savedAt s,
    saved slot = some (savedAt, s) →
      s.Fits first.story.outline

variable {base : FilePath}
variable {place : List String}
variable {stem : String}
variable {first g : Game}
variable {saved : Int → Option (String × State)}
variable {offers : List Offer}
variable {slot : Int}
variable {p p' : Player}
variable {line : String}

/- A session is kept up by an answer to a line. -/
theorem Session.answer
    (hSession : p.Session base place stem first saved)
    (hPhase : p.phase = .commanding g offers)
    (answer : String) :
    ((p.say answer).askCommand g offers).Session base place
      stem first saved := by
  rcases hSession.inPlay.of_commanding hPhase with
    ⟨hShows, hGame, hPrompt⟩
  exact ⟨.commanding (.answered hShows p.files answer) hGame
    hPrompt, hSession.holds, hSession.fits⟩

/- A state is saved unless it holds a number too long. -/
theorem Session.saveTo
    (hFirst : first.IsRestorable base stem)
    (hSession : p.Session base place stem first saved)
    (hPhase : p.phase = .commanding g offers)
    (hLine :
      Command.ofLine offers.length line = .ok (.save slot)) :
    p.Turn line (p.saveTo g offers slot) ∧
      (p.saveTo g offers slot).Session base place stem first
        (savesWith saved slot g.state) := by
  rcases hSession.inPlay.of_commanding hPhase with
    ⟨hShows, hGame, hPrompt⟩
  rcases hSession.holds.write hFirst.usable
      (Command.isInRange_of_ofLine hLine) g.state with
    ⟨files, hWrite, hHolds⟩
  rw [← hFirst.slots, ← hGame.slots] at hWrite
  have hFits : ∀ slot' savedAt s,
      savesWith saved slot g.state slot' = some (savedAt, s) →
        s.Fits first.story.outline := by
    intro slot' savedAt s hSome
    rw [savesWith] at hSome
    split at hSome
    · cases hSome
      exact hGame.fits
    · exact hSession.fits _ _ _ hSome
  unfold Player.saveTo
  by_cases hShort : (g.state.save "").isWritable = true
  · rw [if_pos hShort] at hWrite
    rw [hWrite]
    exact ⟨.saves hPhase hLine hWrite,
      .commanding (.answered hShows files _) hGame hPrompt,
      hHolds, hFits⟩
  · rw [if_neg hShort] at hWrite
    rw [hWrite]
    exact ⟨.cannotSave hPhase hLine
      (Bool.eq_false_iff.mpr hShort), .ended rfl, hHolds,
      hFits⟩

/- A session is kept up by going on with a game. -/
theorem Session.goOn
    (hFirst : first.IsRestorable base stem)
    (hSession : p.Session base place stem first saved)
    (hGame : first.Continues g)
    {q : Player}
    (hFiles : q.files = p.files) :
    q.GoesOn g (q.proceed g) ∧
      (q.proceed g).Session base place stem first saved := by
  have hGoesOn : q.GoesOn g (q.proceed g) :=
    goesOn_proceed (hGame.story ▸ hFirst.sound)
      (hGame.story ▸ hGame.fits) q
  refine ⟨hGoesOn, hGoesOn.isInPlay hFirst.sound hGame, ?_,
    hSession.fits⟩
  rw [hGoesOn.files, hFiles]
  exact hSession.holds

/- A slot that holds a save is loaded. -/
theorem Session.loadFrom_some
    (hFirst : first.IsRestorable base stem)
    (hSession : p.Session base place stem first saved)
    (hGame : first.Continues g)
    (hRange : 1 ≤ slot ∧ slot ≤ slotCount)
    {savedAt : String}
    {s : State}
    (hSaved : saved slot = some (savedAt, s)) :
    g.slots.read p.files slot = .ok (s.save savedAt).sorted ∧
      restore g.story.outline (s.save savedAt).sorted =
        .ok s.ordered ∧
      ∀ offers, p.loadFrom g offers slot =
        (p.say s!"Loaded slot {slot}.").proceed
          { g with state := s.ordered } := by
  have hRestored :=
    hFirst.restores s savedAt (hSession.fits _ _ _ hSaved)
  have hTaken :=
    hSession.holds.isTaken hFirst.usable hRange
  have hRead :=
    hSession.holds.read hFirst.usable hRange hSaved
  rw [hSaved] at hTaken
  rw [← hGame.story] at hRestored
  rw [← hFirst.slots, ← hGame.slots] at hTaken hRead
  refine ⟨hRead, hRestored, ?_⟩
  intro offers
  unfold Player.loadFrom
  simp only [hTaken, hRead, hRestored, Option.isSome_some]

/- A slot is loaded if it holds a save. -/
theorem Session.loadFrom
    (hFirst : first.IsRestorable base stem)
    (hSession : p.Session base place stem first saved)
    (hPhase : p.phase = .commanding g offers)
    (hLine :
      Command.ofLine offers.length line = .ok (.load slot)) :
    p.Turn line (p.loadFrom g offers slot) ∧
      (p.loadFrom g offers slot).Session base place stem first
        saved := by
  rcases hSession.inPlay.of_commanding hPhase with
    ⟨_, hGame, _⟩
  have hRange := Command.isInRange_of_ofLine hLine
  cases hSaved : saved slot with
  | none =>
      have hEmpty :=
        hSession.holds.isTaken hFirst.usable hRange
      rw [hSaved, ← hFirst.slots, ← hGame.slots] at hEmpty
      have hAnswer := hSession.answer hPhase
      unfold Player.loadFrom
      rw [hEmpty]
      exact ⟨.findsNothing hPhase hLine hEmpty, hAnswer _⟩
  | some x =>
      rcases x with ⟨savedAt, s⟩
      rcases hSession.loadFrom_some hFirst hGame hRange
          hSaved with
        ⟨hRead, hRestored, hLoads⟩
      have hGame' : first.Continues { g with state := s.ordered } :=
        hGame.withState (hSession.fits _ _ _ hSaved).ordered
      rcases hSession.goOn hFirst hGame'
          (q := p.say s!"Loaded slot {slot}.") rfl with
        ⟨hGoesOn, hSession'⟩
      rw [hLoads]
      exact ⟨.loads hPhase hLine hRead hRestored hGoesOn,
        hSession'⟩

/- A choice that is read is one that the story presents. -/
theorem Session.obey_choose
    (hFirst : first.IsRestorable base stem)
    (hSession : p.Session base place stem first saved)
    (hPhase : p.phase = .commanding g offers)
    {index : Nat}
    (hLine :
      Command.ofLine offers.length line =
        .ok (.choose index)) :
    p.Turn line (p.obey g offers (.choose index)) ∧
      (p.obey g offers (.choose index)).Session base place stem
        first saved := by
  rcases hSession.inPlay.of_commanding hPhase with
    ⟨_, hGame, hPrompt⟩
  have hIndex : index < offers.length :=
    Command.isInRange_of_ofLine hLine
  rcases runFrom_choose hGame.fits hPrompt hIndex with
    ⟨s, hRun⟩
  rcases State.presenting_of_prompt? hPrompt with
    ⟨hPresenting, rfl⟩
  have hFits := hGame.fits.choose hFirst.sound index
  rw [hRun] at hFits
  rcases hSession.goOn hFirst (hGame.withState hFits)
      (q := p) rfl with
    ⟨hGoesOn, hSession'⟩
  unfold Player.obey
  simp only [hRun]
  exact ⟨.chooses hPhase hLine hPresenting hIndex hRun hGoesOn,
    hSession'⟩

/-
  A line makes a turn of a session, and the slots hold what it
  saved and otherwise what they held before.
-/
theorem Session.feed
    (hFirst : first.IsRestorable base stem)
    (hSession : p.Session base place stem first saved)
    (line : String) :
    p.Turn line (p.feed line) ∧
      (p.feed line).Session base place stem first
        (p.savesAfter line saved) := by
  cases hSession.inPlay with
  | @pausing ps g prompt hPhase hGame hPrompt =>
      have hSame : p.savesAfter line saved = saved := by
        simp only [savesAfter, saves?, hPhase]
      unfold Player.feed
      rw [hSame, hPhase]
      exact ⟨.turnsPage hPhase hPrompt,
        isInPlay_unfold hGame hPrompt ps p,
        files_unfold g prompt ps p ▸ hSession.holds,
        hSession.fits⟩
  | ended hOver =>
      have hSame :
          p.savesAfter line saved = saved ∧
            p.feed line = p := by
        unfold isOver at hOver
        unfold savesAfter saves? Player.feed
        cases hPhase : p.phase with
        | selecting _ => rw [hPhase] at hOver; cases hOver
        | pausing _ _ _ => rw [hPhase] at hOver; cases hOver
        | commanding _ _ => rw [hPhase] at hOver; cases hOver
        | closed _ => exact ⟨rfl, rfl⟩
        | stopped _ => exact ⟨rfl, rfl⟩
      rw [hSame.1, hSame.2]
      exact ⟨.rests hOver, hSession⟩
  | @commanding g offers hShows hGame hPrompt =>
      have hPhase := hShows.phase
      unfold Player.feed savesAfter saves?
      cases hLine : Command.ofLine offers.length line with
      | error reason =>
          simp only [hPhase, hLine]
          exact ⟨.asksAgain hPhase hLine,
            hSession.answer hPhase reason⟩
      | ok c =>
          simp only [hPhase, hLine]
          cases c with
          | quit =>
              exact ⟨.quits hPhase hLine, .ended rfl,
                hSession.holds, hSession.fits⟩
          | save slot => exact hSession.saveTo hFirst hPhase hLine
          | load slot =>
              exact hSession.loadFrom hFirst hPhase hLine
          | choose index =>
              exact hSession.obey_choose hFirst hPhase hLine

/- A line that does not save in a slot does not change it. -/
theorem savesAfter_of_ne
    (hOther : (p.saves? line).any (fun x => x.1 = slot) = false) :
    p.savesAfter line saved slot = saved slot := by
  unfold savesAfter
  cases hSaves : p.saves? line with
  | none => rfl
  | some x =>
      rw [hSaves, Option.any_some, decide_eq_false_iff_not]
        at hOther
      exact if_neg fun hBoth => hOther hBoth.1

/-
  Lines keep up a session.  A slot holds what it held before,
  unless one of the lines saves in it.
-/
theorem Session.run
    (hFirst : first.IsRestorable base stem)
    (hSession : p.Session base place stem first saved)
    (lines : List String) :
    ∃ saved',
      (p.run lines).Session base place stem first saved' ∧
        ∀ slot, p.savesIn slot lines = false →
          saved' slot = saved slot := by
  induction lines generalizing p saved with
  | nil => exact ⟨saved, hSession, fun _ _ => rfl⟩
  | cons line lines ih =>
      rcases ih (hSession.feed hFirst line).2 with
        ⟨saved', hSession', hSame⟩
      refine ⟨saved', hSession', ?_⟩
      intro slot hNone
      rw [savesIn, Bool.or_eq_false_iff] at hNone
      exact (hSame slot hNone.2).trans
        (savesAfter_of_ne hNone.1)

/- A turn brings a player to an end in one of these ways. -/
theorem Turn.closes
    (hInPlay : p.IsInPlay first)
    (hTurn : p.Turn line p')
    (hJson : ∀ slot s, p.saves? line = some (slot, s) →
      (s.save "").isWritable = true)
    (hBefore : p.isOver = false)
    (hOver : p'.isOver = true) :
    p.Closes first.story.outline line p' := by
  cases hTurn with
  | rests hOver' =>
      rw [hBefore] at hOver'
      cases hOver'
  | turnsPage _ hPrompt =>
      exact .story (isEndedBy_of_unfold hPrompt hOver)
  | asksAgain _ _ => cases hOver
  | quits hPhase hLine => exact .quit hPhase hLine
  | saves _ _ _ => cases hOver
  | @cannotSave g offers slot _ hPhase hLine hLong =>
      have hSaves : p.saves? line = some (slot, g.state) := by
        simp only [saves?, hPhase, hLine]
      rw [hJson _ _ hSaves] at hLong
      cases hLong
  | findsNothing _ _ _ => cases hOver
  | loads hPhase _ _ _ hGoesOn =>
      rw [← (hInPlay.of_commanding hPhase).2.1.story]
      exact .story (hGoesOn.isEndedBy hOver)
  | chooses hPhase _ _ _ _ hGoesOn =>
      rw [← (hInPlay.of_commanding hPhase).2.1.story]
      exact .story (hGoesOn.isEndedBy hOver)

end Player

end BranchingStory

------------------------------------------------------------
-- The Protocol
------------------------------------------------------------

namespace BranchingStory

namespace Player

end Player

end BranchingStory
