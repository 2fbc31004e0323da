import BranchingStory.Issue

/-
  This file defines what reading a script keeps track of: the
  issues found so far, and the number of the next alternative.

  Key definitions include:
    * `Draft`
    * `LongNumber`
    * `Reading`
    * `Reading.report`
    * `Reading.nextNumber`
    * `Reading.giveUp`
    * `Reading.start`
-/

------------------------------------------------------------
-- Reading
------------------------------------------------------------

namespace BranchingStory

/-
  The issues found so far, in the order in which they were
  found, and how many alternatives have been numbered.
-/
structure Draft where
  issues : List Issue
  numbered : Nat
deriving DecidableEq, Repr, Inhabited

/-
  The fault that ends the reading of a script at once: a number
  in an expression with too many digits.
-/
structure LongNumber where
  digits : Nat
deriving DecidableEq, Repr

/- The wording of the fault. -/
def LongNumber.message
    (n : LongNumber) : String :=
  longNumeralMessage n.digits

/-
  A step of reading.  It yields its best effort, unless it
  comes upon a number that is too long.
-/
abbrev Reading :=
  StateT Draft (Except LongNumber)

namespace Reading

/- Put an issue on record. -/
def report
    (cause : Cause)
    (line : Nat) : Reading Unit :=
  modify fun d =>
    { d with issues := d.issues ++ [⟨cause, line⟩] }

/- Hand out the number of an alternative. -/
def nextNumber : Reading Nat :=
  modifyGet fun d =>
    (d.numbered, { d with numbered := d.numbered + 1 })

/- Give up over a number of so many digits. -/
def giveUp
    {α : Type}
    (digits : Nat) : Reading α :=
  throw ⟨digits⟩

/- Read from a clean slate. -/
def start
    {α : Type}
    (r : Reading α) : Except LongNumber (α × List Issue) :=
  (r.run ⟨[], 0⟩).map fun (a, d) => (a, d.issues)

end Reading

end BranchingStory
