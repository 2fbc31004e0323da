import BranchingStory.Play.State
import BranchingStory.Random.Snapshot

/-
  This file writes the state of a story as a JSON value.  Only
  what changes is saved: to restore it takes the outline of
  the same script.

  Key definitions include:
    * `saveVersion`
    * `Value.toJson`
    * `State.toJson`
    * `State.save`
-/

------------------------------------------------------------
-- Parts Of The State
------------------------------------------------------------

namespace BranchingStory

/- The version of the format of saved states. -/
def saveVersion : Int :=
  1

/- A value without its kind. -/
def Value.toJson : Value → Json
  | .int n => .int n
  | .float x => .float x
  | .bool b => .bool b
  | .string s => .string s
  | .divert s => .string s

/- A value with its kind. -/
def Value.toTaggedJson
    (v : Value) : Json :=
  .object
    [("kind", .string v.kind.name), ("value", v.toJson)]

/- A table as an object. -/
def Table.toJson
    {K V : Type}
    (key : K → String)
    (value : V → Json)
    (t : Table K V) : Json :=
  Json.ofFields
    (t.entries.map fun e => (key e.1, value e.2))

/- A frame as a pair of its block and its place. -/
def Frame.toJson
    (f : Frame) : Json :=
  .array [.int f.block, .int f.index]

/- An offer. -/
def Offer.toJson
    (x : Offer) : Json :=
  .object
    [("branch_id", .int x.branch),
      ("text", .string x.text),
      ("tags", .array (x.tags.map Json.string))]

end BranchingStory

------------------------------------------------------------
-- States
------------------------------------------------------------

namespace BranchingStory

namespace State

/- The state without its generator, outer frames first. -/
def toJson
    (s : State) : Json :=
  .object
    [("seed", .int s.seed),
      ("location", .string s.location.path),
      ("status", .string s.status.text),
      ("variables",
        s.memory.vars.toJson id Value.toTaggedJson),
      ("frames",
        .array (s.frames.reverse.map Frame.toJson)),
      ("visit_counts",
        s.memory.visits.toJson Address.path Json.int),
      ("choice_counts", s.chosen.toJson toString Json.int),
      ("sequence_cursors",
        s.cursors.toJson toString Json.int),
      ("shuffle_orders",
        s.orders.toJson toString fun order =>
          .array (order.map Json.int)),
      ("presented", .array (s.offers.map Offer.toJson))]

/- The saved form of a state, with the time of saving. -/
def save
    (savedAt : String)
    (s : State) : Json :=
  .object
    [("save_version", .int saveVersion),
      ("metadata",
        .object
          [("location", .string s.location.path),
            ("status", .string s.status.text),
            ("saved_at", .string savedAt)]),
      ("rng", s.generator.snapshot),
      ("state", s.toJson)]

end State

end BranchingStory
