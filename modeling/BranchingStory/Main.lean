import BranchingStory.Console.Arguments
import BranchingStory.Console.Lighthouse
import BranchingStory.Console.Player

/-
  This file is the program that plays a story in a terminal.
  It takes the files that a player needs into a tree, feeds the
  player line by line, and writes back what it has changed.
-/

------------------------------------------------------------
-- Files
------------------------------------------------------------

namespace BranchingStory

namespace Terminal

/-
  What stands at a path on disk.  What cannot be read as a file
  counts as a directory.
-/
def readEntry
    (p : FilePath) : IO (Option FileEntry) := do
  try
    let bytes ← IO.FS.readBinFile p.text
    match String.fromUTF8? bytes with
    | some s => return some (.file (.text s))
    | none => return some (.file (.bytes bytes.toList))
  catch
    | .noFileOrDirectory .. => return none
    | _ => return some .directory

/- Take what stands at a path on disk into a tree. -/
def takeIn
    (t : FileTree)
    (p : FilePath) : IO FileTree := do
  match ← readEntry p with
  | none => return t
  | some e =>
      let (_, t) := (Filing.makeDirectory p.parent).run t
      match t.locate p with
      | .ok place => return t.put place e
      | .error _ => return t

/- Write a file to disk if it has changed. -/
def putOut
    (before after : FileTree)
    (p : FilePath) : IO Unit := do
  let content := (after.contentAt p).toOption
  if (before.contentAt p).toOption ≠ content then
    match content with
    | some (.text s) =>
        IO.FS.createDirAll p.parent.text
        IO.FS.writeFile p.text s
    | _ => return ()

end Terminal

end BranchingStory

------------------------------------------------------------
-- Playing
------------------------------------------------------------

namespace BranchingStory

namespace Terminal

/- The stems of the scripts that can be played. -/
def stems : Option FilePath → List String
  | some script => [script.stem]
  | none =>
      (listScripts (addBundle (.empty [])) bundle).map
        FilePath.stem

/- The files of all slots of the stories with some stems. -/
def slotPaths
    (home : FilePath)
    (names : List String) : List FilePath :=
  names.flatMap fun name =>
    (List.range slotCount).map fun (i : Nat) =>
      (SlotStore.ofStory (saveDirectory home) name slotCount).path
        (i + 1)

/-
  Show what a player shows, and feed it with what is entered,
  until it is over.
-/
partial def converse
    (slots : List FilePath)
    (p : Player) : IO UInt32 := do
  let output ← IO.getStdout
  output.putStr p.shown
  output.flush
  match p.phase with
  | .closed code => return UInt32.ofNat code
  | .stopped fault =>
      IO.eprintln fault.message
      return 1
  | _ =>
      let line ← (← IO.getStdin).getLine
      if line.isEmpty then
        IO.eprintln "EOF when reading a line"
        return 1
      let next := Player.feed { p with shown := "" } line
      slots.forM (putOut p.files next.files)
      converse slots next

/- Play what the arguments ask for. -/
def play
    (as : Arguments) : IO UInt32 := do
  let home :=
    FilePath.ofText ((← IO.getEnv "HOME").getD "/")
  let debug ← IO.getEnv "STORYLOOM_DEBUG"
  let script :=
    (as.script.filter fun s => s ≠ "").map FilePath.ofText
  let slots := slotPaths home (stems script)
  let files ←
    (script.toList ++ Config.path home :: slots).foldlM takeIn
      (addBundle (.empty ["current"]))
  let setting : Setting :=
    { home := home
      stories := bundle
      seed := as.seed.getD (← IO.rand 0 4294967295)
      showLocation := debug == some "1"
      steps := 4294967296 }
  converse slots (.start setting files as.script)

end Terminal

end BranchingStory

------------------------------------------------------------
-- The Program
------------------------------------------------------------

/- Do what the arguments ask for. -/
def main
    (arguments : List String) : IO UInt32 := do
  match BranchingStory.Request.ofArguments arguments with
  | .misuse =>
      IO.eprintln "storyloom: error: invalid arguments"
      return 2
  | .help =>
      IO.print BranchingStory.helpText
      return 0
  | .play as => BranchingStory.Terminal.play as
