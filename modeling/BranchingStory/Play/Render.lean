import BranchingStory.Play.State

/-
  This file renders content to text.  Rendering counts on the
  alternatives that it shows and ends at the first divert that
  it comes to.

  Key definitions include:
    * `Fragment.weight`
    * `nextOrder`
    * `nextItem`
    * `renderWithin`
    * `render`
-/

------------------------------------------------------------
-- Alternatives
------------------------------------------------------------

namespace BranchingStory

/-
  The order of a shuffle at a position of its round.  A new
  round, or a shuffle without an order, draws a new one.
-/
def nextOrder
    (number size : Nat)
    (position : Int) : Play (List Int) := do
  let s ← get
  match s.orders.lookup number with
  | some order =>
      if position = 0 then draw s else return order
  | none => draw s
where
  /- Draw a new order. -/
  draw (s : State) : Play (List Int) := do
    let (xs, g) := s.generator.permutation size
    let order := xs.map fun (n : Nat) => (n : Int)
    set { s with
      generator := g
      orders := s.orders.insert number order }
    return order

/-
  The place of the item that an alternative shows next, if it
  shows one.  The alternative counts that it was shown.
-/
def nextItem
    (mode : Mode)
    (size number : Nat) : Play (Option Int) := do
  let s ← get
  let shown := (s.cursors.lookup number).getD 0
  set { s with cursors := s.cursors.insert number (shown + 1) }
  match mode with
  | .sequence => return some (min shown (size - 1))
  | .cycle => return some (shown % size)
  | .once => return if shown < size then some shown else none
  | .shuffle => do
      let position := shown % (size : Int)
      let order ← nextOrder number size position
      return some (← itemAt order position)

end BranchingStory

------------------------------------------------------------
-- Rendering
------------------------------------------------------------

namespace BranchingStory

namespace Fragment

mutual

/- The number of fragments in a fragment, itself included. -/
def weight : Fragment → Nat
  | .conditional _ t f => 1 + weightAll t + weightAll f
  | .alternative _ items _ => 1 + weightItems items
  | _ => 1

/- The number of fragments in a list of fragments. -/
def weightAll : List Fragment → Nat
  | [] => 0
  | f :: fs => weight f + weightAll fs

/- The number of fragments in the items of an alternative. -/
def weightItems : List (List Fragment) → Nat
  | [] => 0
  | fs :: items => weightAll fs + weightItems items

end

end Fragment

/-
  The text of a list of fragments, and the divert that ends
  it, in at most as many steps as given.  What a fragment is
  replaced by comes ahead of the fragments after it.
-/
def renderWithin :
    Nat → List Fragment → Play (String × Option Divert)
  | 0, _ => return ("", none)
  | _ + 1, [] => return ("", none)
  | n + 1, .text s :: rest => do
      let (text, d) ← renderWithin n rest
      return (s ++ text, d)
  | n + 1, .insertion e :: rest => do
      let s ← textOf (← evaluate e)
      let (text, d) ← renderWithin n rest
      return (s ++ text, d)
  | n + 1, .conditional c whenTrue whenFalse :: rest => do
      if ← test c then renderWithin n (whenTrue ++ rest)
      else renderWithin n (whenFalse ++ rest)
  | n + 1, .alternative mode items number :: rest => do
      match ← nextItem mode items.length number with
      | none => renderWithin n rest
      | some i => do
          let item ← itemAt items i
          renderWithin n (item ++ rest)
  | _ + 1, .divert d :: _ => return ("", some d)

/-
  The text of a list of fragments, and the divert that ends
  it.  Every step does away with a fragment, so that their
  number bounds the steps.
-/
def render
    (fs : List Fragment) : Play (String × Option Divert) :=
  renderWithin (Fragment.weightAll fs) fs

end BranchingStory
