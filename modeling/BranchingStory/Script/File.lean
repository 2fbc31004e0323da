import BranchingStory.Files.Tree

/-
  This file finds script files and reads their texts.

  Key definitions include:
    * `ScriptError`
    * `ScriptError.message`
    * `loadScript`
    * `scriptSuffix`
    * `listScripts`
-/

------------------------------------------------------------
-- Reading Scripts
------------------------------------------------------------

namespace BranchingStory

/- Why the text of a script is not to be had. -/
inductive ScriptError where
  | notFound (path : FilePath)
  | notUtf8 (path : FilePath)
  | unreadable (path : FilePath)
  | notAPath (e : FileError)
deriving DecidableEq, Repr

/- The wording of an error. -/
def ScriptError.message : ScriptError → String
  | .notFound p => s!"Story script not found: {p.text}"
  | .notUtf8 p =>
      s!"Story script is not valid UTF-8: {p.text}"
  | .unreadable p =>
      s!"Unable to read story script: {p.text}"
  | .notAPath e => e.message

/- The text of the script at a path. -/
def loadScript
    (t : FileTree)
    (p : FilePath) : Except ScriptError String :=
  match t.read p with
  | .ok s => .ok s
  | .error (.encoding _) => .error (.notUtf8 p)
  | .error (.file e) =>
      match e.fault with
      | .missing => .error (.notFound p)
      | .nullCharacter => .error (.notAPath e)
      | _ => .error (.unreadable p)

end BranchingStory

------------------------------------------------------------
-- Listing Scripts
------------------------------------------------------------

namespace BranchingStory

/- The end of the name of every script that is listed. -/
def scriptSuffix : String :=
  ".ink"

/- The scripts in a directory, in the order of their names. -/
def listScripts
    (t : FileTree)
    (directory : FilePath) : List FilePath :=
  match t.locate directory with
  | .error _ => []
  | .ok place =>
      match t.entryAt place with
      | some .directory =>
          ((t.childNames place).filter
            fun name => name.endsWith scriptSuffix).map
              fun name =>
                ⟨directory.root, directory.parts ++ [name]⟩
      | _ => []

end BranchingStory
