import BranchingStory.Save.Payload

/-
  This file restores the state of a story from its saved form.
  Every part is checked against the outline of the story; the
  first part that does not fit is told.

  Key definitions include:
    * `SaveError`
    * `SaveError.message`
    * `Shape`
    * `restoreVariables`
    * `restoreFrames`
    * `restoreCounts`
    * `restoreOffers`
    * `restoreState`
    * `restore`
-/

------------------------------------------------------------
-- Faults
------------------------------------------------------------

namespace BranchingStory

/- What a part of a saved state is expected to be. -/
inductive Shape where
  | string
  | integer
  | number
  | boolean
  | list
  | object
deriving DecidableEq, Repr

/- The name of an expected form. -/
def Shape.text : Shape → String
  | .string => "a string"
  | .integer => "an integer"
  | .number => "a number"
  | .boolean => "a boolean"
  | .list => "a list"
  | .object => "an object"

/-
  What can be wrong with a saved state.  Faults name the part
  that they are about.
-/
inductive SaveError where
  | notAnObject
  | unsupportedVersion
  | missingSections
  | generator (fault : RestoreError)
  | expected (part : String) (shape : Shape)
  | unknownLocation (part path : String)
  | invalidStatus (got : Json)
  | wrongKind (name : String) (got : Json) (declared : Kind)
  | undeclaredNames (names : List String)
  | frameShape (part : String)
  | notAContainer (part : String)
  | unknownNode (part : String) (id : Int)
  | notABranch (part : String)
  | keysNotIntegers (part : String)
  | noOffers
  | beyondFloatRange
deriving Repr

namespace SaveError

/- The wording of a fault. -/
def message : SaveError → String
  | .notAnObject => "Save data must be a JSON object."
  | .unsupportedVersion =>
      "Save format is not supported by this version."
  | .missingSections =>
      "Save data is missing required sections."
  | .generator fault =>
      if fault.isOverflow then fault.message
      else "Invalid RNG state: " ++ fault.message
  | .expected part shape => s!"{part} must be {shape.text}."
  | .unknownLocation part path =>
      s!"{part} references unknown location '{path}'."
  | .invalidStatus v => s!"Invalid status value: {v.shown}"
  | .wrongKind n v k =>
      s!"state.variables.{n} has kind {v.shown}, " ++
        s!"expected {k.name}."
  | .undeclaredNames ns =>
      "state.variables has undeclared names: " ++
        ", ".intercalate ns
  | .frameShape part =>
      s!"{part} must hold a container id and an index."
  | .notAContainer part =>
      s!"{part} does not reference a container."
  | .unknownNode part id =>
      s!"{part} references unknown node {id}."
  | .notABranch part =>
      s!"{part} must reference a choice branch."
  | .keysNotIntegers part => s!"{part} keys must be integers."
  | .noOffers =>
      "state.presented is empty while presenting choices."
  | .beyondFloatRange =>
      "int too large to convert to float"

/- Whether a number is out of the range of its type. -/
def isOverflow : SaveError → Bool
  | .generator fault => fault.isOverflow
  | .beyondFloatRange => true
  | _ => false

end SaveError

/- The outcome of restoring a part of a state. -/
abbrev Restoring :=
  Except SaveError

end BranchingStory

------------------------------------------------------------
-- Expected Forms
------------------------------------------------------------

namespace BranchingStory

/- The text that a part must be. -/
def requireString
    (part : String) : Json → Restoring String
  | .string s => .ok s
  | _ => .error (.expected part .string)

/- The integer that a part must be. -/
def requireInt
    (part : String) : Json → Restoring Int
  | .int n => .ok n
  | _ => .error (.expected part .integer)

/- The list that a part must be. -/
def requireList
    (part : String) : Json → Restoring (List Json)
  | .array vs => .ok vs
  | _ => .error (.expected part .list)

/- The object that a part must be. -/
def requireObject
    (part : String) :
    Json → Restoring (List (String × Json))
  | .object fs => .ok fs
  | _ => .error (.expected part .object)

/- The key of an object that must be an integer. -/
def requireKey
    (part key : String) : Restoring Int :=
  match readInt? key.toList with
  | some n => .ok n
  | none => .error (.keysNotIntegers part)

/- The address of a stitch that a part must name. -/
def requireAddress
    (o : Outline)
    (part : String)
    (v : Json) : Restoring Address := do
  let path ← requireString part v
  let a := Address.ofPath path
  if o.hasAddress a then return a
  else throw (.unknownLocation part path)

/- The number of a node that a part must be. -/
def requireNode
    (o : Outline)
    (part : String)
    (v : Json) : Restoring Nat := do
  let n ← requireInt part v
  if 0 ≤ n ∧ n < o.size then return n.toNat
  else throw (.unknownNode part n)

end BranchingStory

------------------------------------------------------------
-- Variables
------------------------------------------------------------

namespace BranchingStory

/- The value of a declared kind that a part must be. -/
def restoreValue
    (o : Outline)
    (name : String)
    (k : Kind)
    (v : Json) : Restoring Value :=
  let part := s!"state.variables.{name}.value"
  match k, v with
  | .bool, .bool b => .ok (.bool b)
  | .bool, _ => .error (.expected part .boolean)
  | .int, v => (requireInt part v).map .int
  | .float, .float x => .ok (.float x)
  | .float, .int n =>
      match doubleOfInt? n with
      | some x => .ok (.float x)
      | none => .error .beyondFloatRange
  | .float, _ => .error (.expected part .number)
  | .divert, v =>
      (requireAddress o part v).map fun a => .divert a.path
  | .string, v => (requireString part v).map .string

/- Whether a JSON value is the name of a kind. -/
def namesKind
    (k : Kind) : Json → Bool
  | .string s => s = k.name
  | _ => false

/- The value of a declared variable. -/
def restoreVariable
    (o : Outline)
    (fields : List (String × Json))
    (d : Declaration) : Restoring (String × Value) := do
  let entry ←
    requireObject s!"state.variables.{d.name}"
      (Json.fieldOrNull fields d.name)
  let kind := Json.fieldOrNull entry "kind"
  if namesKind d.initial.kind kind then
    let v ←
      restoreValue o d.name d.initial.kind
        (Json.fieldOrNull entry "value")
    return (d.name, v)
  else throw (.wrongKind d.name kind d.initial.kind)

/- The values of all variables, and of no other names. -/
def restoreVariables
    (o : Outline)
    (v : Json) : Restoring (Table String Value) := do
  let fields ← requireObject "state.variables" v
  let entries ←
    o.vars.values.mapM (restoreVariable o fields)
  let unknown :=
    (fields.map Prod.fst).filter fun n =>
      !o.vars.contains n
  if unknown.isEmpty then return .ofList entries
  else
    throw (.undeclaredNames
      (unknown.mergeSort fun m n => m ≤ n))

end BranchingStory

------------------------------------------------------------
-- Frames And Offers
------------------------------------------------------------

namespace BranchingStory

/- The numbers of a list, starting at a given one. -/
def restoreIndexed
    {α : Type}
    (f : Nat → Json → Restoring α) :
    Nat → List Json → Restoring (List α)
  | _, [] => .ok []
  | i, v :: vs => do
      let x ← f i v
      let xs ← restoreIndexed f (i + 1) vs
      return x :: xs

/- A frame: a block of the story and a place. -/
def restoreFrame
    (o : Outline)
    (i : Nat)
    (v : Json) : Restoring Frame := do
  let part := s!"state.frames[{i}]"
  match ← requireList part v with
  | [block, index] => do
      let id ← requireNode o part block
      if (o.block? id).isNone then
        throw (.notAContainer part)
      let n ← requireInt part index
      return ⟨id, n⟩
  | _ => throw (.frameShape part)

/- The frames, the innermost first. -/
def restoreFrames
    (o : Outline)
    (v : Json) : Restoring (List Frame) := do
  let vs ← requireList "state.frames" v
  let fs ← restoreIndexed (restoreFrame o) 0 vs
  return fs.reverse

/- An offer of a branch. -/
def restoreOffer
    (o : Outline)
    (i : Nat)
    (v : Json) : Restoring Offer := do
  let part := s!"state.presented[{i}]"
  let fields ← requireObject part v
  let id ←
    requireNode o (part ++ ".branch_id")
      (Json.fieldOrNull fields "branch_id")
  if (o.branch? id).isNone then
    throw (.notABranch (part ++ ".branch_id"))
  let tags ←
    requireList (part ++ ".tags")
      ((Json.field? fields "tags").getD (.array []))
  let text ←
    requireString (part ++ ".text")
      (Json.fieldOrNull fields "text")
  let tags ← tags.mapM (requireString (part ++ ".tags"))
  return ⟨id, text, tags⟩

/- The offers. -/
def restoreOffers
    (o : Outline)
    (v : Json) : Restoring (List Offer) := do
  let vs ← requireList "state.presented" v
  restoreIndexed (restoreOffer o) 0 vs

end BranchingStory

------------------------------------------------------------
-- Counts
------------------------------------------------------------

namespace BranchingStory

/- The visits to places. -/
def restoreVisits
    (o : Outline)
    (v : Json) : Restoring (Table Address Int) := do
  let part := "state.visit_counts"
  let fields ← requireObject part v
  let entries ← fields.mapM fun f => do
    let a ← requireAddress o part (.string f.1)
    let n ← requireInt s!"state.visit_counts.{f.1}" f.2
    return (a, n)
  return .ofList entries

/- Integers by numbers. -/
def restoreCounts
    (part : String)
    (v : Json) : Restoring (Table Int Int) := do
  let fields ← requireObject part v
  let entries ← fields.mapM fun f => do
    let n ← requireInt (part ++ "." ++ f.1) f.2
    let k ← requireKey part f.1
    return (k, n)
  return .ofList entries

/- Lists of integers by numbers. -/
def restoreOrders
    (v : Json) : Restoring (Table Int (List Int)) := do
  let fields ← requireObject "state.shuffle_orders" v
  let entries ← fields.mapM fun f => do
    let part := "state.shuffle_orders." ++ f.1
    let vs ← requireList part f.2
    let ns ← vs.mapM (requireInt part)
    let k ← requireKey part f.1
    return (k, ns)
  return .ofList entries

end BranchingStory

------------------------------------------------------------
-- States
------------------------------------------------------------

namespace BranchingStory

/- The status that a part must name. -/
def restoreStatus
    (v : Json) : Restoring Status :=
  match v with
  | .string s =>
      match Status.ofText? s with
      | some t => .ok t
      | none => .error (.invalidStatus v)
  | _ => .error (.invalidStatus v)

/- The state that the sections of a saved state hold. -/
def restoreState
    (o : Outline)
    (generator : Json)
    (fields : List (String × Json)) : Restoring State := do
  let part := Json.fieldOrNull fields
  let seed ← requireInt "state.seed" (part "seed")
  let g ←
    match (Generator.restore generator).run (.ofSeed seed) with
    | (.ok (), g) => pure g
    | (.error fault, _) => throw (.generator fault)
  let location ←
    requireAddress o "state.location" (part "location")
  let vars ← restoreVariables o (part "variables")
  let status ← restoreStatus (part "status")
  let frames ← restoreFrames o (part "frames")
  let visits ← restoreVisits o (part "visit_counts")
  let chosen ←
    restoreCounts "state.choice_counts" (part "choice_counts")
  let cursors ←
    restoreCounts "state.sequence_cursors"
      (part "sequence_cursors")
  let orders ← restoreOrders (part "shuffle_orders")
  let offers ← restoreOffers o (part "presented")
  if status = .presenting ∧ offers.isEmpty then
    throw .noOffers
  return {
    seed := seed
    generator := g
    location := location
    memory := ⟨vars, visits⟩
    status := status
    frames := frames
    chosen := chosen
    cursors := cursors
    orders := orders
    offers := offers }

/- The state of a story that a JSON value is the save of. -/
def restore
    (o : Outline)
    (v : Json) : Restoring State :=
  match v with
  | .object fields =>
      let part (key : String) := Json.fieldOrNull fields key
      if (part "save_version").equalsInt saveVersion then
        match part "rng", part "state" with
        | .object rng, .object state =>
            restoreState o (.object rng) state
        | _, _ => .error .missingSections
      else .error .unsupportedVersion
  | _ => .error .notAnObject

end BranchingStory
