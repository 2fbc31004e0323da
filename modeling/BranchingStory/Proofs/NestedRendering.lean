import Mathlib.Algebra.GroupWithZero.Nat
import BranchingStory.Proofs.Showings

/-
  This file reads the rendering of content as the recursion
  that it unfolds.  A conditional is rendered as the fragments
  that it chooses and an alternative as the item that it shows,
  each in its place, and the first divert at any depth ends the
  whole.  Rendering does the same, whether it is done with one
  list of fragments that grows and shrinks at its front or with
  a stack of lists that are partly rendered.

  Key definitions include:
    * `untilDivert`
    * `Fragment.renderNested`
    * `Fragment.renderNestedAll`
    * `Unfinished`
    * `Unfinished.turn`
    * `Unfinished.run`
    * `Unfinished.rest`

  Key theorems include:
    * `Fragment.renderNestedAll_append`
    * `renderWithin_eq_nested`
    * `Unfinished.turn_rest`
    * `Unfinished.turn_nears`
    * `Unfinished.run_eq_rest`
    * `rendering_is_recursive`
-/

------------------------------------------------------------
-- Renderings In A Row
------------------------------------------------------------

namespace BranchingStory

/-
  Two renderings, one after the other.  The second one is not
  begun if the first one comes to a divert.
-/
def untilDivert
    (first second : Play (String × Option Divert)) :
    Play (String × Option Divert) := do
  match ← first with
  | (text, some d) => return (text, some d)
  | (text, none) => do
      let (text', d) ← second
      return (text ++ text', d)

variable {α : Type}
variable {p q r : Play (String × Option Divert)}

/- A divert leaves out whatever would be rendered after it. -/
@[simp] theorem untilDivert_divert
    (text : String)
    (d : Divert) :
    untilDivert (pure (text, some d)) q =
      pure (text, some d) := rfl

/- A text comes before whatever is rendered after it. -/
theorem untilDivert_text
    (text : String) :
    untilDivert (pure (text, none)) q = do
      let (text', d) ← q
      return (text ++ text', d) := rfl

/- Without any text, what is rendered after it is the whole. -/
@[simp] theorem untilDivert_empty :
    untilDivert (pure ("", none)) q = q := by
  rw [untilDivert_text]
  simp

/- Nothing is added by a rendering that is empty. -/
@[simp] theorem untilDivert_nothing :
    untilDivert p (pure ("", none)) = p := by
  unfold untilDivert
  conv_rhs => rw [← bind_pure p]
  refine bind_congr fun a => ?_
  rcases a with ⟨text, _ | d⟩
  · simp
  · rfl

/- What comes first may be done before the renderings meet. -/
theorem untilDivert_bind
    (x : Play α)
    (f : α → Play (String × Option Divert)) :
    untilDivert (x >>= f) q =
      x >>= fun a => untilDivert (f a) q := by
  unfold untilDivert
  exact bind_assoc x f _

/- A text may wait for what is done before the rendering. -/
theorem untilDivert_text_bind
    (text : String)
    (x : Play α)
    (f : α → Play (String × Option Divert)) :
    untilDivert (pure (text, none)) (x >>= f) =
      x >>= fun a =>
        untilDivert (pure (text, none)) (f a) := by
  rw [untilDivert_text, bind_assoc]
  rfl

/- Renderings in a row may be grouped in either way. -/
theorem untilDivert_assoc :
    untilDivert (untilDivert p q) r =
      untilDivert p (untilDivert q r) := by
  conv_lhs => rw [untilDivert, untilDivert]
  conv_rhs => rw [untilDivert]
  rw [bind_assoc]
  refine bind_congr fun a => ?_
  rcases a with ⟨text, _ | d⟩
  · simp only [bind_assoc]
    rw [untilDivert, bind_assoc]
    refine bind_congr fun b => ?_
    rcases b with ⟨text', _ | d⟩
    · simp [String.append_assoc]
    · simp
  · rfl

end BranchingStory

------------------------------------------------------------
-- Rendering By Recursion
------------------------------------------------------------

namespace BranchingStory

namespace Fragment

mutual

/-
  The text of a fragment, and the divert that ends it.  What a
  fragment chooses or shows is rendered in its place.
-/
def renderNested : Fragment → Play (String × Option Divert)
  | .text s => return (s, none)
  | .insertion e => do
      return (← textOf (← evaluate e), none)
  | .conditional c whenTrue whenFalse => do
      if ← test c then renderNestedAll whenTrue
      else renderNestedAll whenFalse
  | .alternative mode items number => do
      match ← nextItem mode items.length number with
      | none => return ("", none)
      | some i => do
          let item ← itemAt (renderNestedItems items) i
          item
  | .divert d => return ("", some d)

/- The text of a list of fragments, up to the first divert. -/
def renderNestedAll :
    List Fragment → Play (String × Option Divert)
  | [] => return ("", none)
  | f :: fs =>
      untilDivert (renderNested f) (renderNestedAll fs)

/- The renderings of the items of an alternative. -/
def renderNestedItems :
    List (List Fragment) →
      List (Play (String × Option Divert))
  | [] => []
  | fs :: items => renderNestedAll fs :: renderNestedItems items

end

/- Every item is rendered as a list of fragments. -/
theorem renderNestedItems_eq_map
    (items : List (List Fragment)) :
    renderNestedItems items = items.map renderNestedAll := by
  induction items with
  | nil => rfl
  | cons fs items ih =>
      rw [renderNestedItems, ih, List.map_cons]

/- An alternative is rendered as the item that it shows. -/
theorem renderNested_alternative
    (mode : Mode)
    (items : List (List Fragment))
    (number : Nat) :
    renderNested (.alternative mode items number) = (do
      match ← nextItem mode items.length number with
      | none => return ("", none)
      | some i => do
          let item ← itemAt items i
          renderNestedAll item) := by
  rw [renderNested]
  refine bind_congr fun shown => ?_
  cases shown with
  | none => rfl
  | some i =>
      dsimp only
      rw [renderNestedItems_eq_map, itemAt_map, bind_map_left]

/- Two lists of fragments are rendered one after the other. -/
theorem renderNestedAll_append
    (fs gs : List Fragment) :
    renderNestedAll (fs ++ gs) =
      untilDivert (renderNestedAll fs) (renderNestedAll gs) := by
  induction fs with
  | nil =>
      rw [List.nil_append, renderNestedAll, untilDivert_empty]
  | cons f fs ih =>
      rw [List.cons_append, renderNestedAll, renderNestedAll,
        ih, untilDivert_assoc]

/- Every fragment counts. -/
theorem weight_pos
    (f : Fragment) :
    0 < f.weight := by
  cases f <;> simp only [weight] <;> omega

/- Lists of fragments weigh as much as their parts. -/
theorem weightAll_append
    (fs gs : List Fragment) :
    weightAll (fs ++ gs) = weightAll fs + weightAll gs := by
  induction fs with
  | nil => simp [weightAll]
  | cons f fs ih =>
      rw [List.cons_append, weightAll, weightAll, ih,
        Nat.add_assoc]

/- An item weighs no more than all items do. -/
theorem weightAll_le_weightItems
    {items : List (List Fragment)}
    {item : List Fragment}
    (hItem : item ∈ items) :
    weightAll item ≤ weightItems items := by
  induction items with
  | nil => cases hItem
  | cons fs items ih =>
      rw [weightItems]
      cases hItem with
      | head => exact Nat.le_add_right _ _
      | tail _ hItem =>
          exact Nat.le_trans (ih hItem) (Nat.le_add_left _ _)

end Fragment

/-
  Rendering with one list does what the recursion does: what a
  fragment is replaced by stands ahead of the fragments after
  it, so that it is rendered before them.
-/
theorem renderWithin_eq_nested
    (n : Nat)
    (fs : List Fragment)
    (hSteps : Fragment.weightAll fs ≤ n) :
    renderWithin n fs = Fragment.renderNestedAll fs := by
  induction n generalizing fs with
  | zero =>
      cases fs with
      | nil => rfl
      | cons f fs =>
          have hPos := f.weight_pos
          rw [Fragment.weightAll] at hSteps
          omega
  | succ n ih =>
      cases fs with
      | nil => rfl
      | cons f rest =>
          have hPos := f.weight_pos
          rw [Fragment.weightAll] at hSteps
          have hRest :
              renderWithin n rest =
                Fragment.renderNestedAll rest :=
            ih rest (by omega)
          -- What the fragment is replaced by weighs less.
          have hAhead (gs : List Fragment)
              (hLess : Fragment.weightAll gs < f.weight) :
              renderWithin n (gs ++ rest) =
                untilDivert (Fragment.renderNestedAll gs)
                  (Fragment.renderNestedAll rest) := by
            rw [← Fragment.renderNestedAll_append]
            apply ih
            rw [Fragment.weightAll_append]
            omega
          rw [Fragment.renderNestedAll]
          cases f with
          | text s =>
              rw [renderWithin, Fragment.renderNested,
                untilDivert_text, hRest]
          | insertion e =>
              rw [renderWithin, Fragment.renderNested,
                untilDivert_bind]
              refine bind_congr fun v => ?_
              rw [untilDivert_bind, hRest]
              rfl
          | conditional c t f =>
              rw [Fragment.weight] at hAhead
              rw [renderWithin, Fragment.renderNested,
                untilDivert_bind]
              refine bind_congr fun holds => ?_
              cases holds with
              | true => exact hAhead t (by omega)
              | false => exact hAhead f (by omega)
          | alternative mode items number =>
              rw [Fragment.weight] at hAhead
              rw [renderWithin,
                Fragment.renderNested_alternative,
                untilDivert_bind]
              refine bind_congr fun shown => ?_
              cases shown with
              | none => exact hRest.trans untilDivert_empty.symm
              | some i =>
                  dsimp only
                  rw [itemAt]
                  cases hItem : itemAt? items i with
                  | none => rfl
                  | some item =>
                      have hWeight :=
                        Fragment.weightAll_le_weightItems
                          (mem_of_itemAt? hItem)
                      exact hAhead item (by omega)
          | divert d => rfl

end BranchingStory

------------------------------------------------------------
-- Rendering With A Stack
------------------------------------------------------------

namespace BranchingStory

/-
  A rendering under way: the text so far, and what is left of
  the lists of fragments that are partly rendered, from the
  innermost list out.
-/
structure Unfinished where
  text : String
  stack : List (List Fragment)

/-
  What one turn of rendering comes to: the end of it, or what
  is still under way.
-/
inductive Turn where
  | finished (text : String) (d : Option Divert)
  | goesOn (u : Unfinished)

namespace Unfinished

/-
  One turn of rendering.  It takes the next fragment of the
  innermost list or, if there is none, leaves that list.
-/
def turn : Unfinished → Play Turn
  | ⟨text, []⟩ => return .finished text none
  | ⟨text, [] :: stack⟩ => return .goesOn ⟨text, stack⟩
  | ⟨text, (.text s :: fs) :: stack⟩ =>
      return .goesOn ⟨text ++ s, fs :: stack⟩
  | ⟨text, (.insertion e :: fs) :: stack⟩ => do
      let s ← textOf (← evaluate e)
      return .goesOn ⟨text ++ s, fs :: stack⟩
  | ⟨text, (.conditional c whenTrue whenFalse :: fs) ::
        stack⟩ => do
      if ← test c then
        return .goesOn ⟨text, whenTrue :: fs :: stack⟩
      else return .goesOn ⟨text, whenFalse :: fs :: stack⟩
  | ⟨text, (.alternative mode items number :: fs) ::
        stack⟩ => do
      match ← nextItem mode items.length number with
      | none => return .goesOn ⟨text, fs :: stack⟩
      | some i => do
          let item ← itemAt items i
          return .goesOn ⟨text, item :: fs :: stack⟩
  | ⟨text, (.divert d :: _) :: _⟩ =>
      return .finished text (some d)

/- Turn after turn, but at most as many as given. -/
def run :
    Nat → Unfinished → Play (String × Option Divert)
  | 0, u => return (u.text, none)
  | n + 1, u => do
      match ← u.turn with
      | .finished text d => return (text, d)
      | .goesOn u => run n u

/-
  What a rendering under way comes to by recursion: all of the
  partly rendered lists, after the text so far.
-/
def rest
    (u : Unfinished) : Play (String × Option Divert) :=
  untilDivert (pure (u.text, none))
    (Fragment.renderNestedAll u.stack.flatten)

/- The turns that the lists of a stack may still take. -/
def turnsOf
    (stack : List (List Fragment)) : Nat :=
  (stack.map fun fs => 2 * Fragment.weightAll fs + 1).sum

/- The turns that a rendering under way may still take. -/
def turns
    (u : Unfinished) : Nat :=
  turnsOf u.stack + 1

@[simp] theorem turnsOf_cons
    (fs : List Fragment)
    (stack : List (List Fragment)) :
    turnsOf (fs :: stack) =
      2 * Fragment.weightAll fs + 1 + turnsOf stack := by
  rw [turnsOf, List.map_cons, List.sum_cons, turnsOf]

/- What is still to come after a turn. -/
def restAfter :
    Turn → Play (String × Option Divert)
  | .finished text d => return (text, d)
  | .goesOn u => u.rest

/- A fragment is rendered before what is left of its list. -/
theorem rest_cons
    (text : String)
    (f : Fragment)
    (fs : List Fragment)
    (stack : List (List Fragment)) :
    rest ⟨text, (f :: fs) :: stack⟩ =
      untilDivert (pure (text, none))
        (untilDivert (Fragment.renderNested f)
          (Fragment.renderNestedAll (fs :: stack).flatten)) :=
  rfl

/- The innermost list is rendered before the others. -/
theorem rest_push
    (text : String)
    (gs : List Fragment)
    (stack : List (List Fragment)) :
    rest ⟨text, gs :: stack⟩ =
      untilDivert (pure (text, none))
        (untilDivert (Fragment.renderNestedAll gs)
          (Fragment.renderNestedAll stack.flatten)) := by
  rw [rest, List.flatten_cons, Fragment.renderNestedAll_append]

/-
  A turn does not change what a rendering comes to: what it
  takes off the stack is what it does itself.
-/
theorem turn_rest
    (u : Unfinished) :
    u.rest = u.turn >>= restAfter := by
  rcases u with ⟨text, _ | ⟨_ | ⟨f, fs⟩, stack⟩⟩
  · exact untilDivert_nothing
  · rfl
  · rw [rest_cons]
    cases f with
    | text s =>
        rw [Fragment.renderNested, ← untilDivert_assoc]
        rfl
    | insertion e =>
        rw [Fragment.renderNested, turn, untilDivert_bind,
          untilDivert_text_bind, bind_assoc]
        refine bind_congr fun v => ?_
        rw [untilDivert_bind, untilDivert_text_bind, bind_assoc]
        refine bind_congr fun s => ?_
        rw [← untilDivert_assoc]
        rfl
    | conditional c t f =>
        rw [Fragment.renderNested, turn, untilDivert_bind,
          untilDivert_text_bind, bind_assoc]
        refine bind_congr fun holds => ?_
        cases holds with
        | true => exact (rest_push text t (fs :: stack)).symm
        | false => exact (rest_push text f (fs :: stack)).symm
    | alternative mode items number =>
        rw [Fragment.renderNested_alternative, turn,
          untilDivert_bind, untilDivert_text_bind, bind_assoc]
        refine bind_congr fun shown => ?_
        cases shown with
        | none =>
            dsimp only
            rw [untilDivert_empty]
            rfl
        | some i =>
            dsimp only
            rw [untilDivert_bind, untilDivert_text_bind,
              bind_assoc]
            refine bind_congr fun item => ?_
            exact (rest_push text item (fs :: stack)).symm
    | divert d =>
        rw [Fragment.renderNested, untilDivert_divert,
          untilDivert_text, pure_bind]
        dsimp only
        rw [String.append_empty]
        rfl

/- To go on with what is left of a list takes fewer turns. -/
theorem turns_past_lt
    (text text' : String)
    (f : Fragment)
    (fs : List Fragment)
    (stack : List (List Fragment)) :
    turns ⟨text', fs :: stack⟩ <
      turns ⟨text, (f :: fs) :: stack⟩ := by
  have hPos := f.weight_pos
  simp only [turns, turnsOf_cons, Fragment.weightAll]
  omega

/-
  To go on with what a fragment puts on the stack takes fewer
  turns, as it weighs less than the fragment.
-/
theorem turns_push_lt
    {f : Fragment}
    {gs : List Fragment}
    (hWeight : Fragment.weightAll gs < f.weight)
    (text : String)
    (fs : List Fragment)
    (stack : List (List Fragment)) :
    turns ⟨text, gs :: fs :: stack⟩ <
      turns ⟨text, (f :: fs) :: stack⟩ := by
  simp only [turns, turnsOf_cons, Fragment.weightAll]
  omega

/- A turn leaves fewer turns to be taken. -/
theorem turn_nears
    (u : Unfinished)
    (s : State) :
    Play.Ends u.turn s
      (fun next _ =>
        ∀ u', next = .goesOn u' → u'.turns < u.turns)
      (fun _ _ => True) := by
  rcases u with ⟨text, _ | ⟨_ | ⟨f, fs⟩, stack⟩⟩
  · rintro u' ⟨⟩
  · rintro u' ⟨⟩
    simp only [turns, turnsOf_cons]
    omega
  · cases f with
    | text s =>
        rintro u' ⟨⟩
        exact turns_past_lt _ _ _ _ _
    | insertion e =>
        rw [turn, Play.ends_bind]
        refine .of_forall (fun v s' => ?_) fun _ _ => trivial
        rw [Play.ends_bind]
        refine .of_forall (fun t s' => ?_) fun _ _ => trivial
        rintro u' ⟨⟩
        exact turns_past_lt _ _ _ _ _
    | conditional c t f =>
        rw [turn, Play.ends_bind]
        refine .of_forall (fun holds s' => ?_) fun _ _ => trivial
        cases holds with
        | true =>
            rintro u' ⟨⟩
            refine turns_push_lt ?_ _ _ _
            rw [Fragment.weight]
            omega
        | false =>
            rintro u' ⟨⟩
            refine turns_push_lt ?_ _ _ _
            rw [Fragment.weight]
            omega
    | alternative mode items number =>
        rw [turn, Play.ends_bind]
        refine .of_forall (fun shown s' => ?_) fun _ _ => trivial
        cases shown with
        | none =>
            rintro u' ⟨⟩
            exact turns_past_lt _ _ _ _ _
        | some i =>
            dsimp only
            rw [itemAt]
            cases hItem : itemAt? items i with
            | none => trivial
            | some item =>
                have hWeight :=
                  Fragment.weightAll_le_weightItems
                    (mem_of_itemAt? hItem)
                rintro u' ⟨⟩
                refine turns_push_lt ?_ _ _ _
                rw [Fragment.weight]
                omega
    | divert d => rintro u' ⟨⟩

/-
  With enough turns, what is run comes to what the recursion
  comes to.  A turn does not change that, and leaves fewer
  turns to be taken.
-/
theorem run_eq_rest
    (n : Nat)
    (u : Unfinished)
    (s : State)
    (hTurns : u.turns ≤ n) :
    (u.run n).runFrom s = u.rest.runFrom s := by
  induction n generalizing u s with
  | zero => exact absurd hTurns (Nat.not_succ_le_zero _)
  | succ n ih =>
      rw [run, turn_rest]
      apply Play.runFrom_bind_congr
      refine (u.turn_nears s).mono (fun next s' hNears => ?_)
        fun _ _ hFault => hFault
      cases next with
      | finished text d => rfl
      | goesOn u' =>
          have hLess := hNears u' rfl
          exact ih u' s' (by omega)

end Unfinished

end BranchingStory

------------------------------------------------------------
-- What Content Is Rendered To
------------------------------------------------------------

namespace BranchingStory

open Fragment

/- What comes to a divert leaves out what is after it. -/
theorem runFrom_untilDivert_divert
    {p q : Play (String × Option Divert)}
    {text : String}
    {d : Divert}
    {s s' : State}
    (hRun : p.runFrom s = (.ok (text, some d), s')) :
    (untilDivert p q).runFrom s =
      (.ok (text, some d), s') := by
  rw [untilDivert, Play.runFrom_bind, hRun]
  rfl

/-
  Content is rendered as it is read by recursion: with the same
  text, divert and state, or with the same fault and what had
  been changed before it.  A stack of lists that are partly
  rendered comes to the same.  A divert ends the whole, however
  deep it stands: neither the fragments after it nor the rest
  of any list around it are come to.
-/
theorem rendering_is_recursive
    (fs : List Fragment)
    (s : State) :
    (render fs).runFrom s = (renderNestedAll fs).runFrom s ∧
      (∀ n, Unfinished.turns ⟨"", [fs]⟩ ≤ n →
        (Unfinished.run n ⟨"", [fs]⟩).runFrom s =
          (render fs).runFrom s) ∧
      ∀ text d s',
        (render fs).runFrom s = (.ok (text, some d), s') →
        (∀ gs, (render (fs ++ gs)).runFrom s =
          (.ok (text, some d), s')) ∧
        ∀ before stack n,
          Unfinished.turns ⟨before, fs :: stack⟩ ≤ n →
          (Unfinished.run n ⟨before, fs :: stack⟩).runFrom s =
            (.ok (before ++ text, some d), s') := by
  have hNested (gs : List Fragment) :
      render gs = renderNestedAll gs :=
    renderWithin_eq_nested _ gs (Nat.le_refl _)
  rw [hNested]
  refine ⟨rfl, fun n hTurns => ?_,
    fun text d s' hRun => ⟨fun gs => ?_,
      fun before stack n hTurns => ?_⟩⟩
  · rw [Unfinished.run_eq_rest n _ s hTurns,
      Unfinished.rest_push, untilDivert_empty]
    exact congrArg (Play.runFrom s) untilDivert_nothing
  · rw [hNested, renderNestedAll_append]
    exact runFrom_untilDivert_divert hRun
  · rw [Unfinished.run_eq_rest n _ s hTurns,
      Unfinished.rest_push, untilDivert_text,
      Play.runFrom_bind, runFrom_untilDivert_divert hRun]
    rfl

/-
  An alternative, a divert deeper inside, and more alternatives
  after the divert.
-/
def divertingContent : List Fragment :=
  [.alternative .cycle [[.text "once"], [.text "again"]] 1,
    .conditional (.literal (.bool true))
      [.divert ⟨"END", 1, some .finish⟩,
        .alternative .cycle [[.text "after"]] 2]
      [],
    .alternative .cycle [[.text "after"]] 3]

/-
  Only the alternative before the divert is counted, whatever
  is written after it.
-/
theorem rendering_is_recursive_diverting :
    let o : Outline :=
      ⟨.empty, ⟨rootName, rootName⟩, .empty, [], [], 0⟩
    let s := State.start o 0
    (render (divertingContent ++ [.text "after"])).runFrom s =
      (.ok ("once", some ⟨"END", 1, some .finish⟩),
        { s with cursors := Table.empty.insert 1 1 }) := by
  intro o s
  have hDivert :=
    (rendering_is_recursive divertingContent s).2.2 "once"
      ⟨"END", 1, some .finish⟩
      { s with cursors := Table.empty.insert 1 1 } rfl
  exact hDivert.1 [.text "after"]

end BranchingStory
