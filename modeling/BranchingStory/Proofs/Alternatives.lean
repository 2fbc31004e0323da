import BranchingStory.Proofs.Histories
import Mathlib.Data.List.Pairwise

/-
  This file shows that alternatives show their items in turn,
  over the whole history of a story and each on its own.  What
  an alternative shows next depends on how often it has been
  shown, and for a shuffle on the generator before the first
  showing of its round; nothing else that is shown counts.

  Key definitions include:
    * `showings`
    * `itemDue`
    * `State.ShowsInTurn`
    * `State.ShowsOnly`

  Key theorems include:
    * `Outline.IsSound.alternative_unique`
    * `State.ShowsInTurn.shuffle_order`
    * `State.ShowsInTurn.next`
    * `State.Turns.showsOnly`
    * `Unfolds.showsInTurn`
    * `State.ShowsInTurn.round_perm`
    * `alternatives_show_in_turn`
-/

------------------------------------------------------------
-- Alternatives Of Their Own
------------------------------------------------------------

namespace BranchingStory

variable {o : Outline}

/- The alternatives of the leaves are those of the fragments. -/
theorem Outline.alternativesOf_leaves
    (o : Outline) :
    alternativesOf o.leaves =
      o.fragments.filterMap Fragment.alternative? := by
  simp only [alternativesOf, fragments, Leaf.alternatives,
    List.filterMap_flatMap]

/- A number is that of one alternative. -/
theorem Outline.IsSound.alternative_unique
    (hSound : o.IsSound)
    {mode mode' : Mode}
    {size size' number : Nat}
    (hHas : o.HasAlternative mode size number)
    (hHas' : o.HasAlternative mode' size' number) :
    mode = mode' ∧ size = size' := by
  rcases hHas with ⟨items, rfl, hMem⟩
  rcases hHas' with ⟨items', rfl, hMem'⟩
  have hNodup := hSound.alternatives
  rw [Outline.alternativesOf_leaves, List.Nodup,
    List.pairwise_map, List.pairwise_filterMap] at hNodup
  have hSymmetric : Std.Symm fun f f' : Fragment =>
      ∀ x, f.alternative? = some x →
        ∀ x', f'.alternative? = some x' → x.1 ≠ x'.1 := by
    constructor
    intro f f' hApart x hFirst x' hSecond hSame
    exact hApart x' hSecond x hFirst hSame.symm
  by_cases hSame :
      Fragment.alternative mode items number =
        .alternative mode' items' number
  · cases hSame
    exact ⟨rfl, rfl⟩
  · exact absurd rfl
      (hNodup.forall hMem hMem' hSame (number, items.length)
        rfl (number, items'.length) rfl)

/- Every alternative has an item. -/
theorem Outline.IsSound.alternative_pos
    (hSound : o.IsSound)
    {mode : Mode}
    {size number : Nat}
    (hHas : o.HasAlternative mode size number) :
    0 < size := by
  rcases hHas with ⟨items, rfl, hMem⟩
  rcases List.mem_flatMap.mp hMem with ⟨p, hLeaf, hFragment⟩
  have hFilled :=
    (hSound.leaves p hLeaf).fragments _ hFragment
  exact List.length_pos_of_ne_nil hFilled

end BranchingStory

------------------------------------------------------------
-- Turns Of An Alternative
------------------------------------------------------------

namespace BranchingStory

/- What an alternative shows in a happening, if it does. -/
def Happening.showing? : Happening → Option Showing
  | .showed x => some x
  | _ => none

/- All that alternatives show in a history. -/
def showings
    (h : List Happening) : List Showing :=
  h.filterMap Happening.showing?

/- What the alternative of a number shows. -/
def ofNumber
    (number : Nat)
    (shown : List Showing) : List Showing :=
  shown.filter fun x => x.number = number

/-
  The place of the item that is due at a time, by what the
  alternative has shown.  The round of a shuffle is in the
  order that the generator gives before it begins.
-/
def itemDue
    (mode : Mode)
    (size : Nat)
    (shown : List Showing)
    (n : Nat) : Option Int :=
  match mode with
  | .sequence => some (min (n : Int) (size - 1))
  | .cycle => some ((n : Int) % size)
  | .once => if n < size then some (n : Int) else none
  | .shuffle => do
      let first ← shown[n / size * size]?
      (newOrder size first.generator)[n % size]?

/-
  Whether an alternative has shown its items in turn, and the
  state remembers how often.  Within a round, a shuffle also
  has the order of the round.
-/
structure State.ShowsInTurn
    (mode : Mode)
    (size number : Nat)
    (shown : List Showing)
    (s : State) : Prop where
  cursor :
    (s.cursors.lookup number).getD 0 = shown.length
  due : ∀ n x, shown[n]? = some x →
    x.item = itemDue mode size shown n
  order : mode = .shuffle → shown.length % size ≠ 0 →
    ∃ first,
      shown[shown.length / size * size]? = some first ∧
        s.orders.lookup number =
          some (newOrder size first.generator)

variable {mode : Mode}
variable {size number : Nat}
variable {shown : List Showing}
variable {s s' : State}

/- The start of a round is not after any time in it. -/
theorem roundStart_le
    (n size : Nat) :
    n / size * size ≤ n :=
  Nat.div_mul_le_self n size

/- Only what has been shown tells what is due. -/
theorem itemDue_append
    {n : Nat}
    (hBefore : n < shown.length)
    (later : List Showing) :
    itemDue mode size (shown ++ later) n =
      itemDue mode size shown n := by
  have hFirst :
      (shown ++ later)[n / size * size]? =
        shown[n / size * size]? :=
    List.getElem?_append_left
      (Nat.lt_of_le_of_lt (roundStart_le n size) hBefore)
  cases mode with
  | sequence => rfl
  | cycle => rfl
  | once => rfl
  | shuffle => simp only [itemDue, hFirst]

/- What is due stays due while nothing is counted. -/
theorem State.ShowsInTurn.keep
    (hInTurn : s.ShowsInTurn mode size number shown)
    (hCursor :
      s'.cursors.lookup number = s.cursors.lookup number)
    (hOrder :
      s'.orders.lookup number = s.orders.lookup number) :
    s'.ShowsInTurn mode size number shown where
  cursor := by
    rw [hCursor]
    exact hInTurn.cursor
  due := hInTurn.due
  order := by
    rw [hOrder]
    exact hInTurn.order

end BranchingStory

------------------------------------------------------------
-- Showing Next
------------------------------------------------------------

namespace BranchingStory

open Play

variable {mode : Mode}
variable {size number : Nat}
variable {shown : List Showing}
variable {s : State}

/- The item at a natural place is found as in any list. -/
theorem itemAt?_natCast
    {α : Type}
    (xs : List α)
    (n : Nat) :
    itemAt? xs (n : Int) = xs[n]? := by
  rw [itemAt?, if_pos (Int.natCast_nonneg n),
    Int.toNat_natCast]

/- Other alternatives leave an alternative as it is. -/
theorem State.ShowsInTurn.other
    (hInTurn : s.ShowsInTurn mode size number shown)
    (mode' : Mode)
    (size' : Nat)
    {number' : Nat}
    (hOther : number' ≠ number) :
    ((nextItem mode' size' number').runFrom s).2.ShowsInTurn
      mode size number shown := by
  have hKey : ((number' : Nat) : Int) ≠ number :=
    fun hSame => hOther (Int.ofNat_inj.mp hSame)
  have hCounted :
      (s.countShown number').cursors.lookup number =
        s.cursors.lookup number := by
    simp only [countShown, Table.lookup_insert, if_neg hKey]
  by_cases hMode : mode' = .shuffle
  · rw [hMode, runFrom_nextItem_shuffle]
    simp only
    split
    · refine hInTurn.keep hCounted ?_
      simp only [shuffled, countShown, Table.lookup_insert,
        if_neg hKey]
    · exact hInTurn.keep hCounted rfl
  · rw [runFrom_nextItem hMode]
    exact hInTurn.keep hCounted rfl

/- What an alternative shows at a time, if nothing stops it. -/
def State.shownNext
    (mode : Mode)
    (size number : Nat)
    (s : State) : Showing :=
  ⟨number, itemShown ((nextItem mode size number).runFrom s).1,
    s.generator⟩

/- The count of showings after a further one. -/
theorem lookup_countShown
    (hInTurn : s.ShowsInTurn mode size number shown)
    (x : Showing) :
    ((s.countShown number).cursors.lookup number).getD 0 =
      (shown ++ [x]).length := by
  simp only [State.countShown, Table.lookup_insert, if_true,
    Option.getD_some, hInTurn.cursor, List.length_append]
  rfl

/- What is shown next is due if it is the item that is due. -/
theorem State.ShowsInTurn.due_append
    (hInTurn : s.ShowsInTurn mode size number shown)
    {x : Showing}
    (hNext : x.item =
      itemDue mode size (shown ++ [x]) shown.length) :
    ∀ n y, (shown ++ [x])[n]? = some y →
      y.item = itemDue mode size (shown ++ [x]) n := by
  intro n y hAt
  rcases Nat.lt_trichotomy n shown.length with
    hBefore | rfl | hAfter
  · rw [List.getElem?_append_left hBefore] at hAt
    rw [itemDue_append hBefore]
    exact hInTurn.due n y hAt
  · rw [List.getElem?_concat_length] at hAt
    cases hAt
    exact hNext
  · rw [List.getElem?_eq_none (by simp; omega)] at hAt
    cases hAt

/-
  An alternative that is no shuffle shows the item that is due.
-/
theorem State.ShowsInTurn.next_of_ne
    (hInTurn : s.ShowsInTurn mode size number shown)
    (hMode : mode ≠ .shuffle) :
    ((nextItem mode size number).runFrom s).2.ShowsInTurn
      mode size number
      (shown ++ [s.shownNext mode size number]) := by
  have hDue :
      (s.shownNext mode size number).item =
        itemDue mode size
          (shown ++ [s.shownNext mode size number])
          shown.length := by
    simp only [shownNext, runFrom_nextItem hMode,
      hInTurn.cursor]
    cases mode with
    | sequence => rfl
    | cycle => rfl
    | once => simp [itemDue, itemShown, Except.toOption]
    | shuffle => exact absurd rfl hMode
  refine ⟨?_, hInTurn.due_append hDue, fun hShuffle =>
    absurd hShuffle hMode⟩
  rw [runFrom_nextItem hMode]
  exact lookup_countShown hInTurn _

/- What is taken from an order is the item at its place. -/
theorem itemShown_order
    (order : List Int)
    (n : Nat) :
    itemShown (match itemAt? order (n : Int) with
      | some i => .ok (some i)
      | none => .error .indexOutOfRange) = order[n]? := by
  rw [itemAt?_natCast]
  cases order[n]? <;> rfl

/- Where a round begins, a shuffle draws a new order. -/
theorem runFrom_nextItem_opens
    (hOpens :
      (s.cursors.lookup number).getD 0 % (size : Int) = 0) :
    (nextItem .shuffle size number).runFrom s =
      (match itemAt? (newOrder size s.generator) 0 with
        | some i => .ok (some i)
        | none => .error .indexOutOfRange,
        (s.countShown number).shuffled number size) := by
  have hFresh :
      (s.countShown number).opensRound number 0 = true := by
    simp [State.opensRound]
  have hRun := runFrom_nextItem_shuffle size number s
  simp only [hOpens, hFresh, if_true] at hRun
  exact hRun

/- Within a round, a shuffle keeps to the order it has. -/
theorem runFrom_nextItem_continues
    {order : List Int}
    (hInside :
      (s.cursors.lookup number).getD 0 % (size : Int) ≠ 0)
    (hOrder : s.orders.lookup number = some order) :
    (nextItem .shuffle size number).runFrom s =
      (match
          itemAt? order
            ((s.cursors.lookup number).getD 0 % size) with
        | some i => .ok (some i)
        | none => .error .indexOutOfRange,
        s.countShown number) := by
  have hKept :
      (s.countShown number).opensRound number
        ((s.cursors.lookup number).getD 0 % size) = false := by
    simp only [State.opensRound, hInside, decide_false,
      State.countShown, Table.contains, hOrder,
      Option.isSome_some, Bool.not_true, Bool.or_false]
  have hRun := runFrom_nextItem_shuffle size number s
  simp only [hKept, Bool.false_eq_true, if_false, hOrder,
    Option.getD_some] at hRun
  exact hRun

/-
  A shuffle shows the item at its place in the order of the
  round, and has this order afterwards.  The order is drawn
  where the round begins; within the round it is the one that
  the state remembers.
-/
theorem State.ShowsInTurn.shuffle_order
    (hInTurn : s.ShowsInTurn .shuffle size number shown) :
    ∃ first,
      (shown ++ [s.shownNext .shuffle size number])[
          shown.length / size * size]? = some first ∧
        (s.shownNext .shuffle size number).item =
          (newOrder size first.generator)[
            shown.length % size]? ∧
        ((nextItem .shuffle size number).runFrom
            s).2.orders.lookup number =
          some (newOrder size first.generator) ∧
        ((nextItem .shuffle size number).runFrom s).2.cursors =
          (s.countShown number).cursors := by
  have hPosition :
      (s.cursors.lookup number).getD 0 % (size : Int) =
        ((shown.length % size : Nat) : Int) := by
    rw [hInTurn.cursor, Int.natCast_emod]
  by_cases hOpens : shown.length % size = 0
  · rw [hOpens] at hPosition
    have hRun := runFrom_nextItem_opens hPosition
    refine ⟨s.shownNext .shuffle size number, ?_, ?_, ?_, ?_⟩
    · rw [Nat.div_mul_cancel (Nat.dvd_of_mod_eq_zero hOpens)]
      exact List.getElem?_concat_length
    · simp only [shownNext, hRun, hOpens]
      exact itemShown_order _ 0
    · simp only [shownNext, hRun, shuffled,
        Table.lookup_insert, if_true]
      rfl
    · simp only [hRun]
      rfl
  · rcases hInTurn.order rfl hOpens with
      ⟨first, hFirst, hOrder⟩
    have hInside :
        (s.cursors.lookup number).getD 0 % (size : Int) ≠
          0 := by
      rw [hPosition]
      exact fun hZero => hOpens (Int.ofNat_eq_zero.mp hZero)
    have hRun := runFrom_nextItem_continues hInside hOrder
    have hBegun :
        shown.length / size * size < shown.length := by
      have hSplit := Nat.div_add_mod' shown.length size
      omega
    refine ⟨first, ?_, ?_, ?_, ?_⟩
    · rw [List.getElem?_append_left hBegun]
      exact hFirst
    · simp only [shownNext, hRun, hPosition]
      exact itemShown_order _ _
    · simp only [hRun]
      exact hOrder
    · simp only [hRun]

/- An alternative shows the item that is due next. -/
theorem State.ShowsInTurn.next
    (hInTurn : s.ShowsInTurn mode size number shown) :
    ((nextItem mode size number).runFrom s).2.ShowsInTurn
      mode size number
      (shown ++ [s.shownNext mode size number]) := by
  by_cases hMode : mode = .shuffle
  · subst hMode
    rcases hInTurn.shuffle_order with
      ⟨first, hFirst, hItem, hOrder, hCursors⟩
    refine ⟨?_, hInTurn.due_append ?_, ?_⟩
    · rw [hCursors]
      exact lookup_countShown hInTurn _
    · simp only [itemDue, hFirst]
      exact hItem
    · intro _ hInside
      rw [List.length_append, List.length_singleton] at *
      refine ⟨first, ?_, hOrder⟩
      rw [Nat.succ_div_of_not_dvd
        fun hWhole => hInside (Nat.mod_eq_zero_of_dvd hWhole)]
      exact hFirst
  · exact hInTurn.next_of_ne hMode

end BranchingStory

------------------------------------------------------------
-- Turns Of A Story
------------------------------------------------------------

namespace BranchingStory

open Play

variable {o : Outline}
variable {mode : Mode}
variable {size number : Nat}
variable {h new : List Happening}
variable {shown later : List Showing}
variable {s s' : State}

/-
  Whatever alternatives show one after the other, each of them
  shows in turn.
-/
theorem State.ShowsInTurn.shows
    (hSound : o.IsSound)
    (hHas : o.HasAlternative mode size number)
    (hShows : State.Shows o s later s')
    (hInTurn :
      s.ShowsInTurn mode size number (ofNumber number shown)) :
    s'.ShowsInTurn mode size number
      (ofNumber number (shown ++ later)) := by
  induction hShows generalizing shown with
  | nothing s =>
      rw [List.append_nil]
      exact hInTurn
  | @next s s' mode' size' number' later hHas' hThen ih =>
      rw [List.append_cons]
      apply ih
      rw [ofNumber, List.filter_append]
      by_cases hSame : number' = number
      · subst hSame
        rcases hSound.alternative_unique hHas hHas' with
          ⟨rfl, rfl⟩
        simp only [List.filter_cons, List.filter_nil,
          decide_true, if_true]
        exact hInTurn.next
      · simp only [List.filter_cons, List.filter_nil, hSame,
          decide_false, Bool.false_eq_true, if_false,
          List.append_nil]
        exact hInTurn.other mode' size' hSame

/- What items are shown in one history and a further one. -/
theorem showings_append
    (h h' : List Happening) :
    showings (h ++ h') = showings h ++ showings h' :=
  List.filterMap_append

/- What is shown when items are shown. -/
theorem showings_showed
    (shown : List Showing) :
    showings (shown.map .showed) = shown := by
  induction shown with
  | nil => rfl
  | cons x shown ih => exact congrArg (x :: ·) ih

/-
  Whether a state follows another with all that happens to the
  alternatives being that they show their items.
-/
def State.ShowsOnly
    (o : Outline)
    (s : State)
    (shown : List Showing)
    (s' : State) : Prop :=
  ∃ s₁ s₂, State.Shows o s₁ shown s₂ ∧
    s₁.cursors = s.cursors ∧ s₁.orders = s.orders ∧
      s'.cursors = s₂.cursors ∧ s'.orders = s₂.orders

/- A step changes alternatives only by showing their items. -/
theorem State.Changes.showsOnly
    (hChanges : s.Changes o new s') :
    s.ShowsOnly o (showings new) s' := by
  have hLast {x : Happening} (hNone : x.showing? = none) :
      showings [x] = [] :=
    List.filterMap_cons_none hNone
  cases hChanges with
  | enter stitch hFrames =>
      exact ⟨s, s, Shows.nothing s, rfl, rfl, rfl, rfl⟩
  | leave f g fs hFrames =>
      exact ⟨s, s, Shows.nothing s, rfl, rfl, rfl, rfl⟩
  | finish f hFrames =>
      exact ⟨s, s, Shows.nothing s, rfl, rfl, rfl, rfl⟩
  | pass f fs shown s' hFrames hShows =>
      rw [showings_showed]
      exact ⟨_, _, hShows, rfl, rfl, rfl, rfl⟩
  | divert f fs shown s₁ a hFrames hShows =>
      rw [showings_append, showings_showed, hLast rfl,
        List.append_nil]
      exact ⟨_, _, hShows, rfl, rfl, rfl, rfl⟩
  | conclude f fs shown s₁ hFrames hShows =>
      rw [showings_showed]
      exact ⟨_, _, hShows, rfl, rfl, rfl, rfl⟩
  | assign f fs id name value v hFrames hLeaf =>
      exact ⟨s, s, Shows.nothing s, rfl, rfl, rfl, rfl⟩
  | present f fs shown s₁ offers hFrames hShows hFresh =>
      rw [showings_showed]
      exact ⟨_, _, hShows, rfl, rfl, rfl, rfl⟩
  | take f fs shown s₁ b hFrames hShows hBranch hFresh =>
      rw [showings_append, showings_showed, hLast rfl,
        List.append_nil]
      exact ⟨_, _, hShows, rfl, rfl, rfl, rfl⟩
  | stick f fs shown s' hFrames hShows =>
      rw [showings_showed]
      exact ⟨_, _, hShows, rfl, rfl, rfl, rfl⟩

/- A turn changes alternatives only by showing their items. -/
theorem State.Turns.showsOnly
    (hTurns : s.Turns o h new s') :
    s.ShowsOnly o (showings new) s' := by
  cases hTurns with
  | step new s' hReady hWaiting hChanges =>
      exact hChanges.showsOnly
  | begin hReady =>
      exact ⟨s, s, Shows.nothing s, rfl, rfl, rfl, rfl⟩
  | cut => exact ⟨s, s, Shows.nothing s, rfl, rfl, rfl, rfl⟩
  | choose x f fs hOffer hPresenting hFrames =>
      exact ⟨s, s, Shows.nothing s, rfl, rfl, rfl, rfl⟩
  | move a hSettled =>
      exact ⟨s, s, Shows.nothing s, rfl, rfl, rfl, rfl⟩
  | assign name d v hLookup hVariable =>
      exact ⟨s, s, Shows.nothing s, rfl, rfl, rfl, rfl⟩

/- Every alternative shows its items in turn all along. -/
theorem Unfolds.showsInTurn
    (hUnfolds : Unfolds o h s)
    (hSound : o.IsSound)
    (hHas : o.HasAlternative mode size number) :
    s.ShowsInTurn mode size number
      (ofNumber number (showings h)) := by
  induction hUnfolds with
  | start seed =>
      refine ⟨rfl, ?_, ?_⟩
      · intro n x hAt
        cases hAt
      · intro _ hInside
        exact absurd (Nat.zero_mod size) hInside
  | turn hUnfolds hTurns hFits ih =>
      rcases hTurns.showsOnly with
        ⟨s₁, s₂, hShows, hCursors, hOrders, hCursors',
          hOrders'⟩
      rw [showings_append]
      have hBefore :
          s₁.ShowsInTurn mode size number
            (ofNumber number (showings _)) :=
        ih.keep (by rw [hCursors]) (by rw [hOrders])
      exact (hBefore.shows hSound hHas hShows).keep
        (by rw [hCursors']) (by rw [hOrders'])

end BranchingStory

------------------------------------------------------------
-- Rounds
------------------------------------------------------------

namespace BranchingStory

open scoped List

variable {size number : Nat}
variable {shown : List Showing}
variable {s : State}

/- A new order holds each place once. -/
theorem newOrder_perm
    (size : Nat)
    (g : Generator) :
    newOrder size g ~
      (List.range size).map fun (n : Nat) => (n : Int) :=
  (g.permutation_perm size).map _

/- A new order has a place for each item. -/
theorem length_newOrder
    (size : Nat)
    (g : Generator) :
    (newOrder size g).length = size := by
  rw [(newOrder_perm size g).length_eq, List.length_map,
    List.length_range]

/- In a whole round, a shuffle shows what its order holds. -/
theorem State.ShowsInTurn.round_eq
    (hInTurn : s.ShowsInTurn .shuffle size number shown)
    (m : Nat)
    (hRound : (m + 1) * size ≤ shown.length)
    {first : Showing}
    (hFirst : shown[m * size]? = some first) :
    ((shown.drop (m * size)).take size).map Showing.item =
      (newOrder size first.generator).map some := by
  rw [Nat.succ_mul] at hRound
  apply List.ext_getElem?
  intro i
  rw [List.getElem?_map, List.getElem?_map,
    List.getElem?_take]
  split
  · next hInside =>
      have hBound : m * size + i < shown.length := by omega
      have hStart : (m * size + i) / size = m := by
        rw [Nat.mul_comm, Nat.mul_add_div (by omega),
          Nat.div_eq_of_lt hInside, Nat.add_zero]
      have hPlace : (m * size + i) % size = i := by
        rw [Nat.mul_add_mod', Nat.mod_eq_of_lt hInside]
      have hDue :=
        hInTurn.due (m * size + i) _
          (List.getElem?_eq_getElem hBound)
      have hOrder :
          i < (newOrder size first.generator).length := by
        rw [length_newOrder]
        exact hInside
      simp only [itemDue, hStart, hPlace, hFirst,
        Option.bind_eq_bind, Option.bind_some,
        List.getElem?_eq_getElem hOrder] at hDue
      rw [List.getElem?_drop, List.getElem?_eq_getElem hBound,
        List.getElem?_eq_getElem hOrder, Option.map_some,
        Option.map_some, hDue]
  · next hOutside =>
      rw [List.getElem?_eq_none
        (by rw [length_newOrder]; omega)]
      rfl

/- In a whole round, a shuffle shows each item once. -/
theorem State.ShowsInTurn.round_perm
    (hInTurn : s.ShowsInTurn .shuffle size number shown)
    (hSize : 0 < size)
    (m : Nat)
    (hRound : (m + 1) * size ≤ shown.length) :
    ((shown.drop (m * size)).take size).map Showing.item ~
      (List.range size).map fun (n : Nat) =>
        some (n : Int) := by
  have hBound : m * size < shown.length := by
    rw [Nat.succ_mul] at hRound
    omega
  rw [hInTurn.round_eq m hRound
    (List.getElem?_eq_getElem hBound)]
  have hPerm :=
    (newOrder_perm size shown[m * size].generator).map
      (some : Int → Option Int)
  rw [List.map_map] at hPerm
  exact hPerm

end BranchingStory

------------------------------------------------------------
-- Alternatives
------------------------------------------------------------

namespace BranchingStory

open Play

open scoped List

/-
  In the history of every state that a story that can be read
  comes to, each alternative shows its items in turn: a
  sequence one after the other and then the last, a cycle all
  over again, a once-only alternative each item once and then
  nothing.  A shuffle shows each item once in every round, in
  the order that the generator gives at the start of the
  round.  What other alternatives show plays no part in it,
  since no two have the same number.  What a line is rendered
  to is what is read of it with the items that are shown.
-/
theorem alternatives_show_in_turn
    {source : String}
    {story : Story}
    (hRead : Story.read source = .ok story)
    {h : List Happening}
    {s : State}
    (hHistory : History story.outline h s)
    {mode : Mode}
    {items : List (List Fragment)}
    {number : Nat}
    (hAlternative :
      .alternative mode items number ∈
        story.outline.fragments) :
    (∀ n x, (ofNumber number (showings h))[n]? = some x →
      x.item = itemDue mode items.length
        (ofNumber number (showings h)) n) ∧
    (mode = .shuffle → ∀ m,
      (m + 1) * items.length ≤
          (ofNumber number (showings h)).length →
        (((ofNumber number (showings h)).drop
            (m * items.length)).take items.length).map
              Showing.item ~
          (List.range items.length).map fun (n : Nat) =>
            some (n : Int)) ∧
    ((story.outline.fragments.filterMap
      Fragment.alternative?).map Prod.fst).Nodup ∧
    (∀ l s₁ r s₂,
      (render l.fragments).runFrom s₁ = (.ok r, s₂) →
        readShown l s₁.memory (showingsOf l s₁) = some r) := by
  have hSound := Story.isSound_of_read hRead
  have hHas :
      story.outline.HasAlternative mode items.length number :=
    ⟨items, rfl, hAlternative⟩
  have hInTurn :=
    (hHistory.unfolds hSound).1.showsInTurn hSound hHas
  refine ⟨hInTurn.due, ?_, ?_, ?_⟩
  · rintro rfl m hRound
    exact hInTurn.round_perm (hSound.alternative_pos hHas) m
      hRound
  · rw [← Outline.alternativesOf_leaves]
    exact hSound.alternatives
  · intro l s₁ r s₂ hRender
    exact render_reads hRender

/-
  A story with a sequence of two items that it comes to three
  times, next to a cycle: the third time the sequence shows
  its last item once more.
-/
theorem alternatives_show_in_turn_sequence :
    ∃ story h s items number x,
      Story.read "== hub\n{one|two}{&tick|tock}\n" =
          .ok story ∧
        History story.outline h s ∧
        .alternative .sequence items number ∈
          story.outline.fragments ∧
        items.length = 2 ∧
        (ofNumber number (showings h))[2]? = some x ∧
        x.item = some 1 := by
  have hCheck :
      (match
        Story.read "== hub\n{one|two}{&tick|tock}\n" with
        | .error _ => false
        | .ok story =>
            let o := story.outline
            let s₀ := State.start o 0
            let s₁ := ((resume o 9).runFrom s₀).2
            let s₂ := ((moveTo o "hub" none).runFrom s₁).2
            let s₃ := ((resume o 9).runFrom s₂).2
            let s₄ := ((moveTo o "hub" none).runFrom s₃).2
            let h := [] ++ resumeHistory o 9 s₀ ++
              moveHistory o "hub" none ++
              resumeHistory o 9 s₂ ++
              moveHistory o "hub" none ++ resumeHistory o 9 s₄
            o.fragments.any fun f =>
              match f with
              | .alternative mode items number =>
                  (mode = .sequence && items.length = 2) &&
                    2 < (ofNumber number (showings h)).length
              | .text _ => false
              | .insertion _ => false
              | .conditional _ _ _ => false
              | .divert _ => false) = true := by
    decide +kernel
  cases hRead :
      Story.read "== hub\n{one|two}{&tick|tock}\n" with
  | error e =>
      rw [hRead] at hCheck
      cases hCheck
  | ok story =>
      rw [hRead] at hCheck
      simp only [List.any_eq_true] at hCheck
      rcases hCheck with ⟨f, hFragment, hCheck⟩
      cases f with
      | alternative mode items number =>
          simp only [Bool.and_eq_true, decide_eq_true_eq]
            at hCheck
          rcases hCheck with ⟨⟨rfl, hTwo⟩, hThree⟩
          obtain ⟨h, s, hHistory, hThree⟩ :
              ∃ h s, History story.outline h s ∧
                2 < (ofNumber number (showings h)).length :=
            ⟨_, _, ((((History.start 0).resume 9).moveTo
              "hub" none).resume 9).moveTo
                "hub" none |>.resume 9, hThree⟩
          have hThird := List.getElem?_eq_getElem hThree
          have hDue :=
            (alternatives_show_in_turn hRead hHistory
              hFragment).1 2 _ hThird
          rw [hTwo] at hDue
          exact ⟨story, h, s, items, number, _, rfl, hHistory,
            hFragment, hTwo, hThird, hDue⟩
      | text t => cases hCheck
      | insertion e => cases hCheck
      | conditional c whenTrue whenFalse => cases hCheck
      | divert d => cases hCheck

end BranchingStory
