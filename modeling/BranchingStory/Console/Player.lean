import BranchingStory.Console.Config
import BranchingStory.Console.Screen
import BranchingStory.Play.Access
import BranchingStory.Play.Follow
import BranchingStory.Save.Restore
import BranchingStory.Save.Slots
import BranchingStory.Script.File
import BranchingStory.Story.Read
import BranchingStory.Text.LetterCase

/-
  This file defines the player: a machine that shows a story,
  and is fed with the lines that the user enters.

  Key definitions include:
    * `Setting`
    * `Game`
    * `Phase`
    * `PlayerFault`
    * `Player`
    * `storyTitle`
    * `Player.proceed`
    * `Player.openScript`
    * `Command`
    * `Command.ofLine`
    * `Player.obey`
    * `Player.feed`
    * `Player.start`
    * `Player.run`
-/

------------------------------------------------------------
-- Players
------------------------------------------------------------

namespace BranchingStory

/-
  What a player is given: the home of the user's files, the
  directory of stories to choose from, the seed of shuffles,
  whether locations are shown, and the number of steps that a
  story can take between two prompts.
-/
structure Setting where
  home : FilePath
  stories : FilePath
  seed : Int
  showLocation : Bool
  steps : Nat

/- A story that is being played, and where it is saved. -/
structure Game where
  story : Story
  slots : SlotStore
  config : Config
  state : State

/- The faults that stop a player at once. -/
inductive PlayerFault where
  | play (e : PlayError)
  | save (e : SaveError)
  | slot (e : SlotError)
  | script (e : ScriptError)
  | reading (n : LongNumber)

/- The wording of a fault. -/
def PlayerFault.message : PlayerFault → String
  | .play e => e.message
  | .save e => e.message
  | .slot e => e.message
  | .script e => e.message
  | .reading n => n.message

/-
  What a player waits for: the choice of a script, a sign to go
  on with the paragraphs before a prompt, or a command.  It
  waits for nothing once it is closed or stopped by a fault.
-/
inductive Phase where
  | selecting (scripts : List FilePath)
  | pausing (paragraphs : List String) (g : Game) (p : Prompt)
  | commanding (g : Game) (offers : List Offer)
  | closed (code : Nat)
  | stopped (fault : PlayerFault)

/-
  A player: its setting, the files as it has left them, all
  that it has shown, and what it waits for.
-/
structure Player where
  setting : Setting
  files : FileTree
  shown : String
  phase : Phase

namespace Player

/- Show a text. -/
def display
    (s : String)
    (p : Player) : Player :=
  { p with shown := p.shown ++ s }

/- Show a text as a line of its own. -/
def say
    (s : String)
    (p : Player) : Player :=
  p.display (asLine s)

/- Wait for something, after a text that asks for it. -/
def ask
    (s : String)
    (phase : Phase)
    (p : Player) : Player :=
  { p.display s with phase := phase }

/- Come to an end, with an exit code. -/
def close
    (code : Nat)
    (p : Player) : Player :=
  { p with phase := .closed code }

/- Take leave. -/
def leave
    (p : Player) : Player :=
  (p.say "Goodbye!").close 0

/- Be stopped by a fault. -/
def stop
    (fault : PlayerFault)
    (p : Player) : Player :=
  { p with phase := .stopped fault }

end Player

end BranchingStory

------------------------------------------------------------
-- Going On With A Story
------------------------------------------------------------

namespace BranchingStory

/-
  The faults that a story has to answer for.  A number that is
  out of range is not among them.
-/
def PlayError.isOfStory : PlayError → Bool
  | .evaluation .beyondFloatRange => false
  | .evaluation .remainderOfInfinity => false
  | .indexOutOfRange => false
  | .longInt => false
  | _ => true

namespace Player

/- Ask for a command. -/
def askCommand
    (g : Game)
    (offers : List Offer)
    (p : Player) : Player :=
  p.ask "> " (.commanding g offers)

/- Show a prompt: choices, or the end of the story. -/
def present
    (g : Game)
    (prompt : Prompt)
    (p : Player) : Player :=
  let (knot, stitch) := g.state.place
  let p :=
    if p.setting.showLocation then
      p.display (locationText knot stitch)
    else p
  match prompt with
  | .done => (p.display (headingText "The End")).leave
  | .choices offers =>
      (p.display (choicesText g.config.showTags offers)).askCommand
        g offers

/-
  Show the paragraphs before a prompt, and then the prompt.
  Settings can make the player ask for every paragraph.
-/
def unfold
    (g : Game)
    (prompt : Prompt)
    (ps : List String)
    (p : Player) : Player :=
  let (now, later) := firstPage g.config.stepwise ps
  let p := p.display (String.join (now.map asLine))
  if later.isEmpty then p.present g prompt
  else { p with phase := .pausing later g prompt }

/- Go on with a story up to its next prompt. -/
def proceed
    (g : Game)
    (p : Player) : Player :=
  match g.state.prompt? with
  | some prompt => p.present g prompt
  | none =>
      match
        (resume g.story.outline p.setting.steps).runFrom g.state
      with
      | (.ok (ls, prompt), s) =>
          p.unfold { g with state := s } prompt
            (paragraphs g.config.showTags ls)
      | (.error e, _) =>
          if e.isOfStory then
            (p.say
              s!"\nThe story cannot continue: {e.message}").leave
          else p.stop (.play e)

end Player

end BranchingStory

------------------------------------------------------------
-- Opening Scripts
------------------------------------------------------------

namespace BranchingStory

/- The title that a tag gives to a story, if it does. -/
def titleOfTag?
    (tag : String) : Option String :=
  match breakAt ':' tag.toList with
  | (key, some value) =>
      let title := trim value
      if (trim key).map Char.toLower = "title".toList ∧
          title ≠ [] then
        some (String.ofList title)
      else none
  | _ => none

/- The title that the name of a script gives to a story. -/
def titleOfStem
    (stem : String) : String :=
  titleText (stem.map fun c => if c = '_' then ' ' else c)

/- The title of a story: that of its first title tag, if any. -/
def storyTitle
    (o : Outline)
    (stem : String) : String :=
  (o.tags.findSome? titleOfTag?).getD (titleOfStem stem)

/- The directory of the saved states of all stories. -/
def saveDirectory
    (home : FilePath) : FilePath :=
  (dataDirectory home).child "saves"

/- The number of slots that a player offers. -/
def slotCount : Nat :=
  3

namespace Player

/- Begin a story that was read from a script. -/
def beginStory
    (story : Story)
    (path : FilePath)
    (p : Player) : Player :=
  let home := p.setting.home
  let g : Game :=
    { story := story
      slots := .ofStory (saveDirectory home) path.stem slotCount
      config := .load p.files (Config.path home)
      state := .start story.outline p.setting.seed }
  (p.display
    (headingText (storyTitle story.outline path.stem))).proceed g

/- Open a script and begin its story. -/
def openScript
    (path : FilePath)
    (p : Player) : Player :=
  match loadScript p.files path with
  | .error (.notAPath e) => p.stop (.script (.notAPath e))
  | .error e => (p.say e.message).close 1
  | .ok source =>
      match Story.read source with
      | .ok story => p.beginStory story path
      | .error (.longNumber n) => p.stop (.reading n)
      | .error (.faulty errors) =>
          let lines :=
            s!"The story in {path.text} could not be read:" ::
              errors.map fun issue => "  " ++ issue.text
          (p.display (String.join (lines.map asLine))).close 1

/- Ask which script to open. -/
def askScript
    (scripts : List FilePath)
    (p : Player) : Player :=
  p.ask "Select a story: " (.selecting scripts)

/- The lines of a list of scripts, numbered from a number on. -/
def scriptLines
    (number : Nat) : List FilePath → String
  | [] => ""
  | s :: rest =>
      asLine s!"{number}. {s.stem}" ++
        scriptLines (number + 1) rest

/-
  Open one of the scripts in the directory of stories: the only
  one, or one that the user selects.
-/
def openStories
    (p : Player) : Player :=
  match listScripts p.files p.setting.stories with
  | [] => (p.say "No story scripts found.").close 1
  | [path] => p.openScript path
  | scripts =>
      ((p.say "Available stories:").display
        (scriptLines 1 scripts)).askScript scripts

/- Open the script that is selected by its number. -/
def select
    (scripts : List FilePath)
    (line : String)
    (p : Player) : Player :=
  match readInt? (trim line.toList) with
  | none =>
      (p.say "Please enter a number.").askScript scripts
  | some n =>
      match if n < 1 then none else scripts[(n - 1).toNat]? with
      | some path => p.openScript path
      | none =>
          (p.say
            (s!"Please enter a value between 1 and " ++
              s!"{scripts.length}.")).askScript scripts

end Player

end BranchingStory

------------------------------------------------------------
-- Commands
------------------------------------------------------------

namespace BranchingStory

/- What the user can ask for while there are choices. -/
inductive Command where
  | quit
  | save (slot : Int)
  | load (slot : Int)
  | choose (index : Nat)
deriving DecidableEq, Repr

namespace Command

/- Read the number of a slot as the argument of a command. -/
def readSlot
    (word argument : List Char) : Except String Int :=
  match readInt? argument with
  | none =>
      .error
        s!"Usage: {String.ofList word} <slot 1-{slotCount}>"
  | some n =>
      if 1 ≤ n ∧ n ≤ slotCount then .ok n
      else .error s!"Slots range from 1 to {slotCount}."

/- Read the number of one of some offers. -/
def readChoice
    (offered : Nat)
    (cs : List Char) : Except String Command :=
  match readInt? cs with
  | none =>
      .error
        "Enter a choice number, 'save N', 'load N' or 'quit'."
  | some n =>
      if 1 ≤ n ∧ n ≤ offered then .ok (.choose (n - 1).toNat)
      else
        .error
          s!"Please enter a value between 1 and {offered}."

/-
  The command in a line, in any letter case, or what to say if
  it holds none.
-/
def ofLine
    (offered : Nat)
    (line : String) : Except String Command :=
  let cs := (trim line.toList).map Char.toLower
  let (word, argument) := breakAt ' ' cs
  if word = "q".toList ∨ word = "quit".toList then .ok .quit
  else if word = "save".toList then
    (readSlot word (argument.getD [])).map .save
  else if word = "load".toList then
    (readSlot word (argument.getD [])).map .load
  else readChoice offered cs

end Command

namespace Player

/- Save the story in a slot. -/
def saveTo
    (g : Game)
    (offers : List Offer)
    (slot : Int)
    (p : Player) : Player :=
  let (r, files) :=
    (g.slots.write slot (g.state.save "")).run p.files
  let p := { p with files := files }
  match r with
  | .error e => p.stop (.slot e)
  | .ok () =>
      (p.say s!"Saved to slot {slot}.").askCommand g offers

/- Say why a slot was not loaded, and ask again. -/
def refuse
    (g : Game)
    (offers : List Offer)
    (slot : Int)
    (reason : String)
    (p : Player) : Player :=
  (p.say s!"Could not load slot {slot}: {reason}").askCommand
    g offers

/- Go on with the story as it was saved in a slot. -/
def loadFrom
    (g : Game)
    (offers : List Offer)
    (slot : Int)
    (p : Player) : Player :=
  match g.slots.isTaken p.files slot with
  | .error e => p.stop (.slot e)
  | .ok false =>
      (p.say s!"Slot {slot} is empty.").askCommand g offers
  | .ok true =>
      match g.slots.read p.files slot with
      | .error e => p.refuse g offers slot e.message
      | .ok payload =>
          match restore g.story.outline payload with
          | .ok s =>
              (p.say s!"Loaded slot {slot}.").proceed
                { g with state := s }
          | .error e =>
              if e.isOverflow then p.stop (.save e)
              else p.refuse g offers slot e.message

/- Carry out a command. -/
def obey
    (g : Game)
    (offers : List Offer)
    (c : Command)
    (p : Player) : Player :=
  match c with
  | .quit => p.leave
  | .save slot => p.saveTo g offers slot
  | .load slot => p.loadFrom g offers slot
  | .choose index =>
      match (choose index).runFrom g.state with
      | (.ok _, s) => p.proceed { g with state := s }
      | (.error e, _) => p.stop (.play e)

end Player

end BranchingStory

------------------------------------------------------------
-- Running
------------------------------------------------------------

namespace BranchingStory

namespace Player

/- Take a line that the user has entered. -/
def feed
    (p : Player)
    (line : String) : Player :=
  match p.phase with
  | .selecting scripts => p.select scripts line
  | .pausing ps g prompt => p.unfold g prompt ps
  | .commanding g offers =>
      match Command.ofLine offers.length line with
      | .ok c => p.obey g offers c
      | .error reason => (p.say reason).askCommand g offers
  | .closed _ => p
  | .stopped _ => p

/-
  Start with a script, or with the stories to choose from if
  none is named.
-/
def start
    (setting : Setting)
    (files : FileTree)
    (script : Option String) : Player :=
  let p : Player := ⟨setting, files, "", .closed 0⟩
  match script.getD "" with
  | "" => p.openStories
  | s => p.openScript (.ofText s)

/- Whether no further line is waited for. -/
def isOver
    (p : Player) : Bool :=
  match p.phase with
  | .closed _ => true
  | .stopped _ => true
  | _ => false

/- Take the lines that the user enters, one after the other. -/
def run
    (p : Player)
    (lines : List String) : Player :=
  lines.foldl feed p

end Player

end BranchingStory
