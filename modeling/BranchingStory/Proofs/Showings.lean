import BranchingStory.Play.Follow
import BranchingStory.Proofs.Rendering

/-
  This file tells what alternatives show while content is
  rendered.  Rendering changes nothing but the counts and the
  shuffles of the alternatives that it comes to.

  Key definitions include:
    * `Showing`
    * `showingsWithin`
    * `showingsOf`
    * `offersShowings`
    * `State.Shows`
    * `State.Passes`
    * `readShown`
    * `Branch.IsFresh`

  Key theorems include:
    * `runFrom_nextItem`
    * `runFrom_nextItem_shuffle`
    * `State.Shows.passes`
    * `renderWithin_shows`
    * `render_reads`
    * `offersOf_shows`
    * `findFallback?_finds`
-/

------------------------------------------------------------
-- Showings
------------------------------------------------------------

namespace BranchingStory

/-
  What an alternative showed at one time: its number, the
  place of the item unless it showed nothing, and the
  generator before it.
-/
structure Showing where
  number : Nat
  item : Option Int
  generator : Generator

/- The place of the item that is shown, if there is one. -/
def itemShown
    (r : Except PlayError (Option Int)) : Option Int :=
  r.toOption.join

/-
  What the alternatives show while a list of fragments is
  rendered, in at most as many steps as given.
-/
def showingsWithin :
    Nat → List Fragment → State → List Showing
  | 0, _, _ => []
  | _ + 1, [], _ => []
  | n + 1, .text _ :: rest, s => showingsWithin n rest s
  | n + 1, .insertion e :: rest, s =>
      match e.eval s.memory with
      | .error _ => []
      | .ok v =>
          if v.isWritable then showingsWithin n rest s else []
  | n + 1, .conditional c whenTrue whenFalse :: rest, s =>
      match c.eval s.memory with
      | .error _ => []
      | .ok v =>
          if v.truthy then showingsWithin n (whenTrue ++ rest) s
          else showingsWithin n (whenFalse ++ rest) s
  | n + 1, .alternative mode items number :: rest, s =>
      let next :=
        (nextItem mode items.length number).runFrom s
      ⟨number, itemShown next.1, s.generator⟩ ::
        match next.1 with
        | .error _ => []
        | .ok none => showingsWithin n rest next.2
        | .ok (some i) =>
            match itemAt? items i with
            | none => []
            | some item =>
                showingsWithin n (item ++ rest) next.2
  | _ + 1, .divert _ :: _, _ => []

/- What the alternatives of a line show when it is rendered. -/
def showingsOf
    (l : ContentLine)
    (s : State) : List Showing :=
  showingsWithin (Fragment.weightAll l.fragments) l.fragments s

/-
  What the alternatives show while the branches of a set of
  choices are offered.
-/
def offersShowings : List Branch → State → List Showing
  | [], _ => []
  | b :: bs, s =>
      if b.choice.fallback then offersShowings bs s
      else
        match ((isAvailable b).runFrom s).1 with
        | .error _ => []
        | .ok false => offersShowings bs s
        | .ok true =>
            showingsOf b.choice.display s ++
              match (render b.choice.display.fragments).runFrom
                  s with
              | (.error _, _) => []
              | (.ok _, s') => offersShowings bs s'

end BranchingStory

------------------------------------------------------------
-- Showing And Nothing Else
------------------------------------------------------------

namespace BranchingStory

/- All fragments of an outline, at any depth. -/
def Outline.fragments
    (o : Outline) : List Fragment :=
  o.leaves.flatMap fun p => p.2.fragments

/-
  Whether an outline has an alternative of a mode, with a
  number of items, under a number of its own.
-/
def Outline.HasAlternative
    (o : Outline)
    (mode : Mode)
    (size number : Nat) : Prop :=
  ∃ items, items.length = size ∧
    .alternative mode items number ∈ o.fragments

/-
  Whether a state is left as it is after another in which
  alternatives of the story showed their items, one after the
  other.
-/
inductive State.Shows
    (o : Outline) : State → List Showing → State → Prop where
  | nothing (s : State) : Shows o s [] s
  | next
      {s s' : State}
      {mode : Mode}
      {size number : Nat}
      {shown : List Showing}
      (hAlternative : o.HasAlternative mode size number)
      (hThen : Shows o
        ((nextItem mode size number).runFrom s).2 shown s') :
      Shows o s
        (⟨number,
          itemShown ((nextItem mode size number).runFrom s).1,
          s.generator⟩ :: shown) s'

open Play

/-
  Whether a state differs from another only in what rendering
  may change: the generator, the counts and the orders of the
  alternatives.
-/
def State.Passes
    (s s' : State) : Prop :=
  ∃ g cursors orders,
    s' = { s with
      generator := g
      cursors := cursors
      orders := orders }

namespace State.Passes

variable {s s' s'' : State}

/- Nothing may change. -/
theorem refl
    (s : State) :
    s.Passes s :=
  ⟨s.generator, s.cursors, s.orders, rfl⟩

/- One change may follow another. -/
theorem trans
    (hFirst : s.Passes s')
    (hThen : s'.Passes s'') :
    s.Passes s'' := by
  rcases hFirst with ⟨g, cursors, orders, rfl⟩
  rcases hThen with ⟨g', cursors', orders', rfl⟩
  exact ⟨g', cursors', orders', rfl⟩

/- What a story remembers stays as it is. -/
theorem memory_eq
    (hPasses : s.Passes s') :
    s'.memory = s.memory := by
  rcases hPasses with ⟨g, cursors, orders, rfl⟩
  rfl

end State.Passes

open Play

variable {o : Outline}
variable {s s' : State}

/- An item of an order is taken without any change. -/
theorem runFrom_itemAt
    (order : List Int)
    (i : Int)
    (s : State) :
    (itemAt order i >>= fun j =>
      (pure (some j) : Play (Option Int))).runFrom s =
      (match itemAt? order i with
        | some j => .ok (some j)
        | none => .error .indexOutOfRange, s) := by
  unfold itemAt
  cases itemAt? order i <;> rfl

/- The order of a new round. -/
def newOrder
    (size : Nat)
    (g : Generator) : List Int :=
  (g.permutation size).1.map fun (n : Nat) => (n : Int)

/- The state after a new round has begun. -/
def State.shuffled
    (number size : Nat)
    (s : State) : State :=
  { s with
    generator := (s.generator.permutation size).2
    orders :=
      s.orders.insert number (newOrder size s.generator) }

/- Whether a new round begins at a position. -/
def State.opensRound
    (number : Nat)
    (position : Int)
    (s : State) : Bool :=
  position = 0 || !s.orders.contains number

/- A shuffle keeps its order until a new round begins. -/
theorem runFrom_nextOrder
    (number size : Nat)
    (position : Int)
    (s : State) :
    (nextOrder number size position).runFrom s =
      if s.opensRound number position then
        (.ok (newOrder size s.generator),
          s.shuffled number size)
      else (.ok ((s.orders.lookup number).getD []), s) := by
  unfold nextOrder
  rw [runFrom_bind, runFrom_get]
  simp only
  split
  · next order hLookup =>
      simp only [State.opensRound, Table.contains, hLookup,
        Option.isSome_some, Bool.not_true, Bool.or_false,
        decide_eq_true_eq, Option.getD_some]
      split
      · rfl
      · rfl
  · next hLookup =>
      simp only [State.opensRound, Table.contains, hLookup,
        Option.isSome_none, Bool.not_false, Bool.or_true,
        if_true]
      rfl

/- The state after an alternative has counted a showing. -/
def State.countShown
    (number : Nat)
    (s : State) : State :=
  { s with
    cursors :=
      s.cursors.insert number
        ((s.cursors.lookup number).getD 0 + 1) }

/-
  An alternative counts that it is shown and, unless it is a
  shuffle, takes the item that the count tells.
-/
theorem runFrom_nextItem
    {mode : Mode}
    (hMode : mode ≠ .shuffle)
    (size number : Nat)
    (s : State) :
    (nextItem mode size number).runFrom s =
      let shown := (s.cursors.lookup number).getD 0
      (.ok (match mode with
        | .sequence => some (min shown (size - 1))
        | .cycle => some (shown % size)
        | _ => if shown < size then some shown else none),
        s.countShown number) := by
  unfold nextItem
  rw [runFrom_bind, runFrom_get]
  simp only [runFrom_bind, runFrom_set]
  cases mode with
  | sequence => rfl
  | cycle => rfl
  | once => rfl
  | shuffle => exact absurd rfl hMode

/-
  A shuffle counts that it is shown and takes the item from
  its order.
-/
theorem runFrom_nextItem_shuffle
    (size number : Nat)
    (s : State) :
    (nextItem .shuffle size number).runFrom s =
      let position := (s.cursors.lookup number).getD 0 % size
      let counted := s.countShown number
      let fresh := counted.opensRound number position
      let order :=
        if fresh then newOrder size s.generator
        else (s.orders.lookup number).getD []
      (match itemAt? order position with
        | some i => .ok (some i)
        | none => .error .indexOutOfRange,
        if fresh then counted.shuffled number size
        else counted) := by
  unfold nextItem
  rw [runFrom_bind, runFrom_get]
  simp only
  rw [runFrom_bind, runFrom_set]
  simp only
  rw [← State.countShown, runFrom_bind, runFrom_nextOrder]
  generalize hFresh :
    (s.countShown number).opensRound number _ = fresh
  cases fresh with
  | true => exact runFrom_itemAt _ _ _
  | false => exact runFrom_itemAt _ _ _

/- The next item is shown in passing. -/
theorem nextItem_passes
    (mode : Mode)
    (size number : Nat)
    (s : State) :
    s.Passes ((nextItem mode size number).runFrom s).2 := by
  have hCounted : s.Passes (s.countShown number) :=
    ⟨_, _, _, rfl⟩
  by_cases hMode : mode = .shuffle
  · rw [hMode, runFrom_nextItem_shuffle]
    simp only
    split
    · exact hCounted.trans ⟨_, _, _, rfl⟩
    · exact hCounted
  · rw [runFrom_nextItem hMode]
    exact hCounted

namespace State.Shows

variable {shown shown' : List Showing}
variable {s'' : State}

/- Items are shown in passing. -/
theorem passes
    (hShows : Shows o s shown s') :
    s.Passes s' := by
  induction hShows with
  | nothing s => exact Passes.refl s
  | next hAlternative hThen ih =>
      exact (nextItem_passes _ _ _ _).trans ih

/- Items may be shown after others. -/
theorem trans
    (hFirst : Shows o s shown s')
    (hThen : Shows o s' shown' s'') :
    Shows o s (shown ++ shown') s'' := by
  induction hFirst with
  | nothing s => exact hThen
  | next hAlternative hRest ih =>
      exact next hAlternative (ih hThen)

end State.Shows

end BranchingStory

------------------------------------------------------------
-- Rendering
------------------------------------------------------------

namespace BranchingStory

open Play

variable {o : Outline}

/- An expression is evaluated without any change. -/
theorem runFrom_evaluate
    (e : Expr)
    (s : State) :
    (evaluate e).runFrom s =
      (match e.eval s.memory with
        | .ok v => .ok v
        | .error f => .error (.evaluation f), s) := by
  unfold evaluate
  rw [runFrom_bind, runFrom_get]
  simp only
  cases e.eval s.memory <;> rfl

/- A condition is tested without any change. -/
theorem runFrom_test
    (e : Expr)
    (s : State) :
    (test e).runFrom s =
      (match e.eval s.memory with
        | .ok v => .ok v.truthy
        | .error f => .error (.evaluation f), s) := by
  unfold test
  rw [runFrom_bind, runFrom_evaluate]
  cases e.eval s.memory <;> rfl

/- A value is written without any change. -/
theorem runFrom_textOf
    (v : Value)
    (s : State) :
    (textOf v).runFrom s =
      (if v.isWritable then .ok v.text else .error .longInt,
        s) := by
  unfold textOf
  split <;> rfl

/- What is done with a value changes nothing. -/
theorem state_bind_pure
    {α β : Type}
    (p : Play α)
    (f : α → β)
    (s : State) :
    ((p >>= fun a => pure (f a)).runFrom s).2 =
      (p.runFrom s).2 := by
  rw [runFrom_bind]
  rcases p.runFrom s with ⟨_ | _, s'⟩ <;> rfl

/- A value that is evaluated is that of the expression. -/
theorem evaluate_ok
    {e : Expr}
    {v : Value}
    {s s' : State} :
    (evaluate e).runFrom s = (.ok v, s') ↔
      e.eval s.memory = .ok v ∧ s' = s := by
  rw [runFrom_evaluate]
  cases e.eval s.memory with
  | error fault => simp
  | ok w => simp [eq_comm]

/- A condition that is tested holds as its value tells. -/
theorem test_ok
    {e : Expr}
    {holds : Bool}
    {s s' : State} :
    (test e).runFrom s = (.ok holds, s') ↔
      (∃ v, e.eval s.memory = .ok v ∧ v.truthy = holds) ∧
        s' = s := by
  rw [runFrom_test]
  cases e.eval s.memory with
  | error fault => simp
  | ok v => simp [eq_comm]

/- A value that is written can be, and is its text. -/
theorem textOf_ok
    {v : Value}
    {t : String}
    {s s' : State} :
    (textOf v).runFrom s = (.ok t, s') ↔
      (v.isWritable = true ∧ v.text = t) ∧ s' = s := by
  rw [runFrom_textOf]
  cases v.isWritable with
  | false => simp
  | true => simp [eq_comm]

/- An item that is taken stands at its place. -/
theorem itemAt_ok
    {α : Type}
    {xs : List α}
    {i : Int}
    {x : α}
    {s s' : State} :
    (itemAt xs i).runFrom s = (.ok x, s') ↔
      itemAt? xs i = some x ∧ s' = s := by
  unfold itemAt
  cases itemAt? xs i with
  | none => simp
  | some y => simp [eq_comm]

/- What stands at a place of a list is one of its items. -/
theorem mem_of_itemAt?
    {α : Type}
    {xs : List α}
    {i : Int}
    {x : α}
    (hItem : itemAt? xs i = some x) :
    x ∈ xs := by
  rw [itemAt?] at hItem
  split at hItem
  · exact List.mem_of_getElem? hItem
  · split at hItem
    · exact List.mem_of_getElem? hItem
    · cases hItem

/- The same place of a mapped list holds the mapped item. -/
theorem itemAt?_map
    {α β : Type}
    (g : α → β)
    (xs : List α)
    (i : Int) :
    itemAt? (xs.map g) i = (itemAt? xs i).map g := by
  unfold itemAt?
  rw [List.length_map]
  split
  · rw [List.getElem?_map]
  · split
    · rw [List.getElem?_map]
    · rfl

/- To take an item of a mapped list is to map what is taken. -/
theorem itemAt_map
    {α β : Type}
    (g : α → β)
    (xs : List α)
    (i : Int) :
    itemAt (xs.map g) i = g <$> itemAt xs i := by
  unfold itemAt
  rw [itemAt?_map]
  cases itemAt? xs i with
  | none => rfl
  | some x => rfl

/-
  While fragments of the story are rendered, the alternatives
  show their items, and nothing else changes.
-/
theorem renderWithin_shows
    {fs : List Fragment}
    (hOf : Fragment.All (· ∈ o.fragments) fs)
    (n : Nat)
    (s : State) :
    State.Shows o s (showingsWithin n fs s)
      ((renderWithin n fs).runFrom s).2 := by
  induction n generalizing fs s with
  | zero => exact State.Shows.nothing s
  | succ n ih =>
      cases fs with
      | nil => exact State.Shows.nothing s
      | cons f rest =>
          cases f with
          | text t =>
              rw [renderWithin, showingsWithin,
                state_bind_pure]
              exact ih hOf.tail s
          | insertion e =>
              rw [renderWithin, showingsWithin, runFrom_bind,
                runFrom_evaluate]
              cases e.eval s.memory with
              | error f => exact State.Shows.nothing s
              | ok v =>
                  simp only
                  rw [runFrom_bind, runFrom_textOf]
                  split
                  · simp only
                    rw [state_bind_pure]
                    exact ih hOf.tail s
                  · exact State.Shows.nothing s
          | conditional c whenTrue whenFalse =>
              rw [renderWithin, showingsWithin, runFrom_bind,
                runFrom_test]
              rcases hOf.conditional with ⟨hTrue, hFalse⟩
              cases c.eval s.memory with
              | error f => exact State.Shows.nothing s
              | ok v =>
                  simp only
                  split
                  · exact ih (hTrue.append hOf.tail) s
                  · exact ih (hFalse.append hOf.tail) s
          | alternative mode items number =>
              rw [renderWithin, showingsWithin, runFrom_bind]
              have hAlternative :
                  o.HasAlternative mode items.length number :=
                ⟨items, rfl, hOf.head⟩
              apply State.Shows.next hAlternative
              generalize (nextItem mode items.length
                number).runFrom s = next
              rcases next with ⟨_ | _ | i, s'⟩
              · exact State.Shows.nothing s'
              · exact ih hOf.tail s'
              · simp only [itemAt]
                generalize hItem : itemAt? items i = item?
                cases item? with
                | none => exact State.Shows.nothing s'
                | some item =>
                    have hPart :=
                      hOf.item (mem_of_itemAt? hItem)
                    exact ih (hPart.append hOf.tail) s'
          | divert d => exact State.Shows.nothing s

/-
  The text of a list of fragments, read with what a story
  remembers and with the items that are shown, in at most as
  many steps as given.
-/
def readWithin
    (m : Memory) :
    Nat → List Fragment → List Showing →
      Option (String × Option Divert)
  | 0, _, _ => some ("", none)
  | _ + 1, [], _ => some ("", none)
  | n + 1, .text t :: rest, xs => do
      let (text, d) ← readWithin m n rest xs
      return (t ++ text, d)
  | n + 1, .insertion e :: rest, xs => do
      let v ← (e.eval m).toOption
      let (text, d) ← readWithin m n rest xs
      return (v.text ++ text, d)
  | n + 1, .conditional c whenTrue whenFalse :: rest, xs => do
      let v ← (c.eval m).toOption
      if v.truthy then readWithin m n (whenTrue ++ rest) xs
      else readWithin m n (whenFalse ++ rest) xs
  | _ + 1, .alternative _ _ _ :: _, [] => none
  | n + 1, .alternative _ items _ :: rest, x :: xs =>
      match x.item with
      | none => readWithin m n rest xs
      | some i => do
          let item ← itemAt? items i
          readWithin m n (item ++ rest) xs
  | _ + 1, .divert d :: _, _ => some ("", some d)

/- The text of a line, read with the items that are shown. -/
def readShown
    (l : ContentLine)
    (m : Memory)
    (shown : List Showing) : Option (String × Option Divert) :=
  readWithin m (Fragment.weightAll l.fragments) l.fragments
    shown

/-
  What is rendered is what is read with the items that are
  shown meanwhile.
-/
theorem renderWithin_reads
    (n : Nat)
    (fs : List Fragment)
    {s s' : State}
    {r : String × Option Divert}
    (hRender : (renderWithin n fs).runFrom s = (.ok r, s')) :
    readWithin s.memory n fs (showingsWithin n fs s) =
      some r := by
  induction n generalizing fs s r s' with
  | zero =>
      cases hRender
      rfl
  | succ n ih =>
      cases fs with
      | nil =>
          cases hRender
          rfl
      | cons f rest =>
          cases f with
          | text t =>
              rw [renderWithin] at hRender
              rcases runFrom_bind_ok.mp hRender with
                ⟨⟨text, d⟩, s₁, hRest, hYields⟩
              cases hYields
              simp [readWithin, showingsWithin, ih rest hRest]
          | insertion e =>
              rw [renderWithin] at hRender
              rcases runFrom_bind_ok.mp hRender with
                ⟨v, s₁, hValue, hThen⟩
              rcases runFrom_bind_ok.mp hThen with
                ⟨t, s₂, hText, hLast⟩
              rcases runFrom_bind_ok.mp hLast with
                ⟨⟨text, d⟩, s₃, hRest, hYields⟩
              cases hYields
              rcases evaluate_ok.mp hValue with ⟨hEval, rfl⟩
              rcases textOf_ok.mp hText with
                ⟨⟨hWritable, rfl⟩, rfl⟩
              simp [readWithin, showingsWithin, hEval,
                hWritable, Except.toOption, ih rest hRest]
          | conditional c whenTrue whenFalse =>
              rw [renderWithin] at hRender
              rcases runFrom_bind_ok.mp hRender with
                ⟨holds, s₁, hTest, hPart⟩
              rcases test_ok.mp hTest with
                ⟨⟨v, hEval, rfl⟩, rfl⟩
              rw [readWithin, showingsWithin, hEval]
              cases hHolds : v.truthy with
              | true =>
                  rw [hHolds] at hPart
                  simpa [Except.toOption, hHolds] using
                    ih _ hPart
              | false =>
                  rw [hHolds] at hPart
                  simpa [Except.toOption, hHolds] using
                    ih _ hPart
          | alternative mode items number =>
              rw [renderWithin] at hRender
              rcases runFrom_bind_ok.mp hRender with
                ⟨i?, s₁, hNext, hThen⟩
              have hPasses :=
                nextItem_passes mode items.length number s
              rw [hNext] at hPasses
              rw [showingsWithin, hNext, readWithin,
                ← hPasses.memory_eq]
              cases i? with
              | none => exact ih _ hThen
              | some i =>
                  rcases runFrom_bind_ok.mp hThen with
                    ⟨item, s₂, hItem, hPart⟩
                  rcases itemAt_ok.mp hItem with ⟨hAt, rfl⟩
                  simpa [itemShown, Except.toOption, hAt] using
                    ih _ hPart
          | divert d =>
              cases hRender
              rfl

/- What is rendered of a line is what is read of it. -/
theorem render_reads
    {l : ContentLine}
    {s s' : State}
    {r : String × Option Divert}
    (hRender : (render l.fragments).runFrom s = (.ok r, s')) :
    readShown l s.memory (showingsOf l s) = some r :=
  renderWithin_reads _ _ hRender

/- The fragments of the lines of the story are its own. -/
theorem Outline.all_mem_fragments
    {p : Nat × Leaf}
    (hLeaf : p ∈ o.leaves)
    {l : ContentLine}
    (hLine : l ∈ p.2.lines) :
    Fragment.All (· ∈ o.fragments) l.fragments := by
  intro f hMem
  exact List.mem_flatMap.mpr ⟨p, hLeaf,
    List.mem_flatMap.mpr ⟨l, hLine, hMem⟩⟩

/- A line of the story is rendered in passing. -/
theorem render_shows
    {p : Nat × Leaf}
    (hLeaf : p ∈ o.leaves)
    {l : ContentLine}
    (hLine : l ∈ p.2.lines)
    (s : State) :
    State.Shows o s (showingsOf l s)
      ((render l.fragments).runFrom s).2 :=
  renderWithin_shows (Outline.all_mem_fragments hLeaf hLine) _ s

end BranchingStory

------------------------------------------------------------
-- Offers
------------------------------------------------------------

namespace BranchingStory

open Play

variable {o : Outline}

/- Whether a branch may be taken once more. -/
def Branch.IsFresh
    (b : Branch)
    (s : State) : Prop :=
  b.choice.sticky = true ∨ s.timesChosen b.id ≤ 0

/- Conditions are tested without any change. -/
theorem state_allHold
    (es : List Expr)
    (s : State) :
    ((allHold es).runFrom s).2 = s := by
  induction es with
  | nil => rfl
  | cons e es ih =>
      rw [allHold, runFrom_bind, runFrom_test]
      cases e.eval s.memory with
      | error f => rfl
      | ok v =>
          simp only
          split
          · exact ih
          · rfl

/-
  Whether a branch can be taken is found out without any
  change.  A branch that can be taken is fresh.
-/
theorem isAvailable_ends
    (b : Branch)
    (s : State) :
    Ends (isAvailable b) s
      (fun r s' => s' = s ∧ (r = true → b.IsFresh s))
      (fun _ s' => s' = s) := by
  unfold isAvailable
  rw [ends_bind, ends_get]
  split
  · refine ⟨rfl, ?_⟩
    intro hFalse
    cases hFalse
  · next hFresh =>
      have hFresh' : b.IsFresh s := by
        unfold Branch.IsFresh
        simp only [Bool.and_eq_true, Bool.not_eq_true',
          decide_eq_true_eq, not_and] at hFresh
        cases hSticky : b.choice.sticky with
        | true => exact Or.inl rfl
        | false => exact Or.inr (Int.not_lt.mp (hFresh hSticky))
      have hSame := state_allHold b.choice.conditions s
      unfold Ends
      generalize (allHold b.choice.conditions).runFrom s = p
        at hSame
      rcases p with ⟨_ | r, s'⟩
      · exact hSame
      · exact ⟨hSame, fun _ => hFresh'⟩

/- Whether all offers are of fresh branches among others. -/
def Offer.AreFresh
    (bs : List Branch)
    (s : State)
    (offers : List Offer) : Prop :=
  ∀ x ∈ offers, ∃ b ∈ bs, b.id = x.branch ∧ b.IsFresh s

/- Offers of branches are offers of more branches. -/
theorem Offer.AreFresh.subset
    {bs bs' : List Branch}
    {s : State}
    {offers : List Offer}
    (hFresh : AreFresh bs s offers)
    (hSubset : bs ⊆ bs') :
    AreFresh bs' s offers := by
  intro x hMem
  rcases hFresh x hMem with ⟨c, hBranch, hOffer⟩
  exact ⟨c, hSubset hBranch, hOffer⟩

/-
  Branches are offered in passing, and each that is offered is
  fresh.
-/
theorem offersOf_shows
    {bs : List Branch}
    (hPlayable : ∀ b ∈ bs, b.IsPlayable o)
    (s : State) :
    Ends (offersOf bs) s
      (fun offers s' =>
        State.Shows o s (offersShowings bs s) s' ∧
          Offer.AreFresh bs s offers)
      (fun _ s' =>
        State.Shows o s (offersShowings bs s) s') := by
  induction bs generalizing s with
  | nil =>
      refine ⟨State.Shows.nothing s, ?_⟩
      intro x hMem
      cases hMem
  | cons b bs ih =>
      rw [List.forall_mem_cons] at hPlayable
      rcases hPlayable with ⟨hBranch, hRest⟩
      have hLater (s : State) :=
        (ih hRest s).mono
          (fun offers s' hEnds =>
            And.intro hEnds.1
              (hEnds.2.subset (List.subset_cons_self b bs)))
          (fun _ _ hFault => hFault)
      rw [offersOf, offersShowings]
      split
      · exact hLater s
      · have hAvailable := isAvailable_ends b s
        rcases hRun : (isAvailable b).runFrom s with
          ⟨e | available, s₁⟩
        · rw [ends_bind_error hRun, hAvailable.of_error hRun]
          exact State.Shows.nothing s
        · rcases hAvailable.of_ok hRun with ⟨rfl, hFresh⟩
          rw [ends_bind_ok hRun]
          cases available with
          | false => exact hLater s₁
          | true =>
              have hDisplay :=
                render_shows (l := b.choice.display) hBranch
                  List.mem_cons_self s₁
              simp only [if_true]
              rcases hRender :
                  (render b.choice.display.fragments).runFrom
                    s₁ with
                ⟨e | r, s₂⟩
              · rw [hRender] at hDisplay
                rw [ends_bind_error hRender, List.append_nil]
                exact hDisplay
              · rw [hRender] at hDisplay
                rw [ends_bind_ok hRender]
                simp only [ends_bind, ends_pure]
                refine (ih hRest s₂).mono ?_ ?_
                · rintro offers s' ⟨hShows, hOffered⟩
                  refine ⟨hDisplay.trans hShows, ?_⟩
                  intro x hMem
                  rcases List.mem_cons.mp hMem with
                    rfl | hMem
                  · exact ⟨b, List.mem_cons_self, rfl,
                      hFresh rfl⟩
                  · rcases hOffered x hMem with
                      ⟨c, hAmong, hId, hFresh'⟩
                    rcases hDisplay.passes with
                      ⟨g, cursors, orders, rfl⟩
                    exact ⟨c, List.mem_cons_of_mem b hAmong,
                      hId, hFresh'⟩
                · intro e s' hShows
                  exact hDisplay.trans hShows

/-
  A fallback is found without any change, and it is a fresh
  one.
-/
theorem findFallback?_finds
    (bs : List Branch)
    (s : State) :
    Ends (findFallback? bs) s
      (fun b? s' => s' = s ∧ ∀ b, b? = some b →
        b ∈ bs ∧ b.choice.fallback = true ∧ b.IsFresh s)
      (fun _ s' => s' = s) := by
  induction bs with
  | nil =>
      refine ⟨rfl, ?_⟩
      intro b hSome
      cases hSome
  | cons c bs ih =>
      have hLater :=
        ih.mono
          (fun b? s' hEnds =>
            And.intro hEnds.1 fun b hSome =>
              And.imp_left (List.mem_cons_of_mem c)
                (hEnds.2 b hSome))
          (fun _ _ hFault => hFault)
      rw [findFallback?]
      split
      · next hFallback =>
          rw [ends_bind]
          refine (isAvailable_ends c s).mono ?_ ?_
          · rintro available s' ⟨rfl, hFresh⟩
            split
            · next hAvailable =>
                refine ⟨rfl, ?_⟩
                intro b hSome
                cases hSome
                exact ⟨List.mem_cons_self, hFallback,
                  hFresh hAvailable⟩
            · exact hLater
          · intro e s' hFault
            exact hFault
      · exact hLater

end BranchingStory
