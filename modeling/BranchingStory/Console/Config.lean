import BranchingStory.Files.Tree
import BranchingStory.Json.Reader
import BranchingStory.Json.Writer

/-
  This file defines the settings that a player keeps in a file.
  What is not a valid setting there counts as the default.

  Key definitions include:
    * `dataDirectory`
    * `Config`
    * `Config.ofFields`
    * `Config.toJson`
    * `Config.load`
    * `Config.save`
-/

------------------------------------------------------------
-- Places
------------------------------------------------------------

namespace BranchingStory

/- The directory of the files that belong to a user. -/
def dataDirectory
    (home : FilePath) : FilePath :=
  home.child ".config/storyloom"

end BranchingStory

------------------------------------------------------------
-- Settings
------------------------------------------------------------

namespace BranchingStory

/-
  The settings: whether the player asks for every paragraph,
  and whether tags are shown.
-/
structure Config where
  stepwise : Bool
  showTags : Bool
deriving DecidableEq, Repr

namespace Config

/- The settings of a player who has made none. -/
def default : Config :=
  ⟨false, false⟩

/- The file of the settings. -/
def path
    (home : FilePath) : FilePath :=
  (dataDirectory home).child "config.json"

/- The settings in the fields of an object. -/
def ofFields
    (fields : List (String × Json)) : Config :=
  { stepwise :=
      match Json.field? fields "text_display_mode" with
      | some (.string s) => s == "step"
      | _ => false
    showTags :=
      match Json.field? fields "show_tags" with
      | some (.bool b) => b
      | _ => false }

/- The settings in a JSON value. -/
def ofJson : Json → Config
  | .object fields => ofFields fields
  | _ => default

/- The settings as a JSON value. -/
def toJson
    (c : Config) : Json :=
  .object
    [("text_display_mode",
        .string (if c.stepwise then "step" else "instant")),
      ("show_tags", .bool c.showTags)]

/- Writing settings and reading them gives them back. -/
theorem ofJson_toJson
    (c : Config) :
    ofJson c.toJson = c := by
  obtain ⟨stepwise, showTags⟩ := c
  cases stepwise <;> cases showTags <;> rfl

/- The settings in a file, or the defaults without one. -/
def load
    (t : FileTree)
    (p : FilePath) : Config :=
  match t.read p with
  | .error _ => default
  | .ok s =>
      match Json.read s with
      | .error _ => default
      | .ok j => ofJson j

/- Keep the settings in a file. -/
def save
    (c : Config)
    (p : FilePath) : Filing Unit := do
  Filing.makeDirectory p.parent
  Filing.write p (.text (Json.write c.toJson))

end Config

end BranchingStory
