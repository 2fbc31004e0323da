import BranchingStory.Files.Tree
import BranchingStory.Json.Reader
import BranchingStory.Json.Writer

/-
  This file keeps saved states in numbered slots.  Each story
  has a directory of its own, and each slot is a JSON file in
  it.

  Key definitions include:
    * `SlotError`
    * `SlotError.message`
    * `SlotStore`
    * `SlotStore.path`
    * `SlotStore.check`
    * `SlotStore.isTaken`
    * `SlotStore.read`
    * `SlotStore.write`
    * `SlotSummary`
    * `SlotStore.list`
-/

------------------------------------------------------------
-- Faults
------------------------------------------------------------

namespace BranchingStory

/- What can be wrong with the use of a slot. -/
inductive SlotError where
  | outOfRange (count : Int)
  | unreadable (fault : ReadFault)
  | unwritable (e : FileError)
  | notJson (e : JsonError)
  | longInt

/- The wording of an error. -/
def SlotError.message : SlotError → String
  | .outOfRange n =>
      s!"Slot index must be between 1 and {n}."
  | .unreadable fault => fault.message
  | .unwritable e => e.message
  | .notJson e => e.message
  | .longInt => longIntMessage

end BranchingStory

------------------------------------------------------------
-- Slots
------------------------------------------------------------

namespace BranchingStory

/- The slots of a story: their directory and their number. -/
structure SlotStore where
  directory : FilePath
  count : Int
deriving DecidableEq, Repr

namespace SlotStore

/- The slots of a story below the directory for all stories. -/
def ofStory
    (base : FilePath)
    (story : String)
    (count : Int) : SlotStore :=
  ⟨base.child story, count⟩

/- The file of a slot. -/
def path
    (store : SlotStore)
    (slot : Int) : FilePath :=
  ⟨store.directory.root,
    store.directory.parts ++ [s!"slot_{slot}.json"]⟩

/- Slots are numbered from one to their count. -/
def check
    (store : SlotStore)
    (slot : Int) : Except SlotError Unit :=
  if 1 ≤ slot ∧ slot ≤ store.count then .ok ()
  else .error (.outOfRange store.count)

/- Whether a slot holds anything. -/
def isTaken
    (store : SlotStore)
    (t : FileTree)
    (slot : Int) : Except SlotError Bool := do
  store.check slot
  (t.holds (store.path slot)).mapError fun e =>
    .unreadable (.file e)

/- The JSON value in the file at a path. -/
def readFile
    (t : FileTree)
    (p : FilePath) : Except SlotError Json := do
  let s ← (t.read p).mapError .unreadable
  (Json.read s).mapError .notJson

/- The saved state in a slot. -/
def read
    (store : SlotStore)
    (t : FileTree)
    (slot : Int) : Except SlotError Json := do
  store.check slot
  readFile t (store.path slot)

/-
  Put a saved state into a slot.  The directory is made even if
  the state turns out to be unfit for it.
-/
def write
    (store : SlotStore)
    (slot : Int)
    (payload : Json) :
    ExceptT SlotError (StateM FileTree) Unit := do
  MonadExcept.ofExcept (store.check slot)
  (Filing.makeDirectory store.directory).adapt .unwritable
  if payload.isWritable then
    (Filing.write (store.path slot)
      (.text (Json.write payload))).adapt .unwritable
  else throw .longInt

end SlotStore

end BranchingStory

------------------------------------------------------------
-- Summaries
------------------------------------------------------------

namespace BranchingStory

/-
  What is shown of a slot: whether it is taken, the description
  of what is in it, and whether that cannot be read.
-/
structure SlotSummary where
  slot : Int
  taken : Bool
  metadata : Option (List (String × Json))
  corrupt : Bool

namespace SlotStore

/- The description that a saved state has of itself. -/
def metadataOf
    (payload : Json) : Option (List (String × Json)) :=
  match payload.get? "metadata" with
  | some (.object fields) => some fields
  | _ => none

/- The summary of a slot. -/
def summary
    (store : SlotStore)
    (t : FileTree)
    (slot : Int) : Except SlotError SlotSummary := do
  if ← store.isTaken t slot then
    match readFile t (store.path slot) with
    | .error _ => return ⟨slot, true, none, true⟩
    | .ok payload =>
        return ⟨slot, true, metadataOf payload, false⟩
  else return ⟨slot, false, none, false⟩

/- The summaries of all slots, in order. -/
def list
    (store : SlotStore)
    (t : FileTree) : Except SlotError (List SlotSummary) :=
  (List.range store.count.toNat).mapM
    fun (i : Nat) => store.summary t (i + 1)

end SlotStore

end BranchingStory
