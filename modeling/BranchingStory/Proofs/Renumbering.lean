import BranchingStory.Markup.Content

/-
  This file tells content apart from the numbers of its
  alternatives, and gives it new numbers: one after the other,
  those within the items of an alternative before its own.

  Key definitions include:
    * `numbersAll`
    * `unnumberedAll`
    * `renumberAll`

  Key theorems include:
    * `numbers_renumberAll`
    * `unnumbered_renumberAll`
-/

------------------------------------------------------------
-- Numbers Of Alternatives
------------------------------------------------------------

namespace BranchingStory

mutual

/-
  The numbers of the alternatives in a fragment.  The number
  of an alternative comes after those within its items.
-/
def Fragment.numbers : Fragment → List Nat
  | .conditional _ t f => numbersAll t ++ numbersAll f
  | .alternative _ items number =>
      numbersOfItems items ++ [number]
  | _ => []

/- The numbers of the alternatives in fragments. -/
def numbersAll : List Fragment → List Nat
  | [] => []
  | f :: fs => f.numbers ++ numbersAll fs

/- The numbers within the items of an alternative. -/
def numbersOfItems : List (List Fragment) → List Nat
  | [] => []
  | fs :: items => numbersAll fs ++ numbersOfItems items

end

mutual

/- A fragment with zero for the number of each alternative. -/
def Fragment.unnumbered : Fragment → Fragment
  | .conditional c t f =>
      .conditional c (unnumberedAll t) (unnumberedAll f)
  | .alternative m items _ =>
      .alternative m (unnumberedItems items) 0
  | f => f

/- Fragments without the numbers of their alternatives. -/
def unnumberedAll : List Fragment → List Fragment
  | [] => []
  | f :: fs => f.unnumbered :: unnumberedAll fs

/- The same for the items of an alternative. -/
def unnumberedItems :
    List (List Fragment) → List (List Fragment)
  | [] => []
  | fs :: items => unnumberedAll fs :: unnumberedItems items

end

mutual

/- A fragment with new numbers, from a given one on. -/
def Fragment.renumber
    (n : Nat) : Fragment → Fragment
  | .conditional c t f =>
      .conditional c (renumberAll n t)
        (renumberAll (n + (numbersAll t).length) f)
  | .alternative m items _ =>
      .alternative m (renumberItems n items)
        (n + (numbersOfItems items).length)
  | f => f

/- Fragments with new numbers, one after the other. -/
def renumberAll
    (n : Nat) : List Fragment → List Fragment
  | [] => []
  | f :: fs =>
      f.renumber n :: renumberAll (n + f.numbers.length) fs

/- The same for the items of an alternative. -/
def renumberItems
    (n : Nat) : List (List Fragment) → List (List Fragment)
  | [] => []
  | fs :: items =>
      renumberAll n fs ::
        renumberItems (n + (numbersAll fs).length) items

end

end BranchingStory

------------------------------------------------------------
-- New Numbers
------------------------------------------------------------

namespace BranchingStory

theorem numbersAll_append
    (fs gs : List Fragment) :
    numbersAll (fs ++ gs) =
      numbersAll fs ++ numbersAll gs := by
  induction fs with
  | nil => rfl
  | cons f fs ih =>
      rw [List.cons_append, numbersAll, numbersAll, ih,
        List.append_assoc]

theorem renumberAll_append
    (n : Nat)
    (fs gs : List Fragment) :
    renumberAll n (fs ++ gs) =
      renumberAll n fs ++
        renumberAll (n + (numbersAll fs).length) gs := by
  induction fs generalizing n with
  | nil => rfl
  | cons f fs ih =>
      rw [List.cons_append, renumberAll, renumberAll, ih,
        numbersAll, List.length_append, Nat.add_assoc,
        List.cons_append]

mutual

/- New numbers are consecutive. -/
theorem Fragment.numbers_renumber
    (n : Nat)
    (f : Fragment) :
    (f.renumber n).numbers =
      List.range' n f.numbers.length := by
  cases f with
  | conditional c t f =>
      rw [Fragment.renumber, Fragment.numbers,
        numbers_renumberAll, numbers_renumberAll,
        Fragment.numbers, List.length_append,
        List.range'_append_1]
  | alternative m items number =>
      rw [Fragment.renumber, Fragment.numbers,
        numbers_renumberItems, Fragment.numbers,
        List.length_append, ← List.range'_append_1]
      rfl
  | _ => rfl

/- The same for fragments one after the other. -/
theorem numbers_renumberAll
    (n : Nat)
    (fs : List Fragment) :
    numbersAll (renumberAll n fs) =
      List.range' n (numbersAll fs).length := by
  cases fs with
  | nil => rfl
  | cons f fs =>
      rw [renumberAll, numbersAll, Fragment.numbers_renumber,
        numbers_renumberAll, numbersAll, List.length_append,
        List.range'_append_1]

/- The same for the items of an alternative. -/
theorem numbers_renumberItems
    (n : Nat)
    (items : List (List Fragment)) :
    numbersOfItems (renumberItems n items) =
      List.range' n (numbersOfItems items).length := by
  cases items with
  | nil => rfl
  | cons fs items =>
      rw [renumberItems, numbersOfItems, numbers_renumberAll,
        numbers_renumberItems, numbersOfItems,
        List.length_append, List.range'_append_1]

end

mutual

/- New numbers are all that changes. -/
theorem Fragment.unnumbered_renumber
    (n : Nat)
    (f : Fragment) :
    (f.renumber n).unnumbered = f.unnumbered := by
  cases f with
  | conditional c t f =>
      rw [Fragment.renumber, Fragment.unnumbered,
        unnumbered_renumberAll, unnumbered_renumberAll,
        Fragment.unnumbered]
  | alternative m items number =>
      rw [Fragment.renumber, Fragment.unnumbered,
        unnumbered_renumberItems, Fragment.unnumbered]
  | _ => rfl

/- The same for fragments one after the other. -/
theorem unnumbered_renumberAll
    (n : Nat)
    (fs : List Fragment) :
    unnumberedAll (renumberAll n fs) = unnumberedAll fs := by
  cases fs with
  | nil => rfl
  | cons f fs =>
      rw [renumberAll, unnumberedAll,
        Fragment.unnumbered_renumber, unnumbered_renumberAll,
        unnumberedAll]

/- The same for the items of an alternative. -/
theorem unnumbered_renumberItems
    (n : Nat)
    (items : List (List Fragment)) :
    unnumberedItems (renumberItems n items) =
      unnumberedItems items := by
  cases items with
  | nil => rfl
  | cons fs items =>
      rw [renumberItems, unnumberedItems,
        unnumbered_renumberAll, unnumbered_renumberItems,
        unnumberedItems]

end

end BranchingStory
