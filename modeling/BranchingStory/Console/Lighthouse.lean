import BranchingStory.Files.Tree

/-
  This file holds the story that is played when no script is
  given.

  Key definitions include:
    * `lighthouse`
    * `bundle`
    * `addBundle`
-/

------------------------------------------------------------
-- The Lighthouse
------------------------------------------------------------

namespace BranchingStory

/- The lines of the story. -/
def lighthouseLines : List String :=
  ["# title: The Lighthouse Keeper",
    "",
    "VAR lamp_oil = 2",
    "VAR met_keeper = false",
    "VAR name = \"traveller\"",
    "CONST MAX_OIL = 5",
    "",
    "// TODO: add a storm variant once weather tags " ++
        "are supported",
    "The wind drags salt across the rocks. " ++
        "\x7b~Gulls wheel overhead.|A buoy bell clangs " ++
        "somewhere.|The sea hisses.\x7d",
    "-> shore",
    "",
    "=== shore ===",
    "# location: shore",
    "You stand at the foot of the lighthouse.",
    "*   [Knock on the door] You knock, firmly.",
    "    -> door",
    "+   \x7blamp_oil > 0\x7d [Check the lamp oil] " ++
        "You count \x7blamp_oil\x7d measures of oil.",
    "    ~ lamp_oil = lamp_oil - 1",
    "    -> shore",
    "*   [Walk back along the beach]",
    "    -> beach",
    "+   -> beach",
    "",
    "=== door ===",
    "\x7bmet_keeper: The keeper nods at you again.|A " ++
        "weathered keeper opens the door.\x7d",
    "~ met_keeper = true",
    "\"Who goes there?\" <>",
    "\x7bdoor > 1: she sighs.|she asks.\x7d",
    "*   \"Just \x7bname\x7d.\"",
    "    \"Then come in, \x7bname\x7d.\"",
    "*   [Say nothing] You say nothing.",
    "    She shrugs.",
    "- She leads you up the spiral stairs.",
    "-> lamp_room.top",
    "",
    "=== lamp_room ===",
    "= top",
    "The great lamp sits dark. The gauge reads " ++
        "\x7blamp_oil\x7d of \x7bMAX_OIL\x7d.",
    "*   \x7blamp_oil >= 1\x7d [Fill the lamp] You " ++
        "pour the oil in. The beam sweeps the water. # " ++
        "ending: light",
    "    -> END",
    "*   [Leave it dark]",
    "    -> beach",
    "",
    "=== beach ===",
    "\x7b!The tide is out.|The tide creeps back " ++
        "in.|The beach is nearly gone.\x7d",
    "The lighthouse stands behind you\x7bshore > 1:, " ++
        "as patient as ever\x7d.",
    "-> END"]

/- The script of the story. -/
def lighthouse : String :=
  String.join (lighthouseLines.map fun line => line ++ "\n")

/- The directory of the stories that come with a player. -/
def bundle : FilePath :=
  .ofText "/storyloom/stories"

/- Add the stories that come with a player to its files. -/
def addBundle
    (t : FileTree) : FileTree :=
  t.put (bundle.parts ++ ["lighthouse.ink"])
    (.file (.text lighthouse))

end BranchingStory
