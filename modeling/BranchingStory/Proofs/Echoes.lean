import BranchingStory.Proofs.ChoiceTexts
import BranchingStory.Proofs.NestedRendering

/-
  This file renders content and its echo.  As long as the
  alternatives of the echo have been shown as often as those of
  the content, none of them a shuffle, and the story remembers
  the same, the echo says the same with blanks after it.

  Key definitions include:
    * `State.timesShown`
    * `State.IsInStep`
    * `Play.Echoes`
    * `Fragment.Avoids`
    * `Fragment.IsSteady`

  Key theorems include:
    * `timesShown_nextItem`
    * `renderWithin_keeps`
    * `Play.Echoes.bind`
    * `Fragment.renderNestedAll_echoes`
    * `render_echo`
-/

------------------------------------------------------------
-- Counts Of Showings
------------------------------------------------------------

namespace BranchingStory

open Play

/- How often the alternative of a number has been shown. -/
def State.timesShown
    (number : Nat)
    (s : State) : Int :=
  (s.cursors.lookup number).getD 0

/- A showing is counted for the alternative that is shown. -/
theorem timesShown_nextItem
    (mode : Mode)
    (size number n : Nat)
    (s : State) :
    ((nextItem mode size number).runFrom s).2.timesShown n =
      if n = number then s.timesShown number + 1
      else s.timesShown n := by
  have hCounted :
      (s.countShown number).timesShown n =
        if n = number then s.timesShown number + 1
        else s.timesShown n := by
    simp only [State.timesShown, State.countShown,
      Table.lookup_insert, Int.natCast_inj]
    by_cases hSame : n = number
    · rw [if_pos hSame, if_pos hSame.symm]
      rfl
    · rw [if_neg hSame, if_neg fun hBack => hSame hBack.symm]
  by_cases hMode : mode = .shuffle
  · rw [hMode, runFrom_nextItem_shuffle]
    simp only
    split
    · exact hCounted
    · exact hCounted
  · rw [runFrom_nextItem hMode]
    exact hCounted

/- Whether a fragment is no alternative of a number. -/
def Fragment.Avoids
    (number : Nat)
    (f : Fragment) : Prop :=
  ∀ x, f.alternative? = some x → x.1 ≠ number

/- Rendering counts only the alternatives in what it renders. -/
theorem renderWithin_keeps
    {number : Nat}
    {fs : List Fragment}
    (hAvoids : Fragment.All (Fragment.Avoids number) fs)
    (n : Nat)
    (s : State) :
    ((renderWithin n fs).runFrom s).2.timesShown number =
      s.timesShown number := by
  induction n generalizing fs s with
  | zero => rfl
  | succ n ih =>
      cases fs with
      | nil => rfl
      | cons f rest =>
          cases f with
          | text t =>
              rw [renderWithin, state_bind_pure]
              exact ih hAvoids.tail s
          | insertion e =>
              rw [renderWithin, runFrom_bind, runFrom_evaluate]
              cases e.eval s.memory with
              | error f => rfl
              | ok v =>
                  simp only
                  rw [runFrom_bind, runFrom_textOf]
                  cases v.isWritable with
                  | false => rfl
                  | true =>
                      simp only [if_true]
                      rw [state_bind_pure]
                      exact ih hAvoids.tail s
          | conditional c whenTrue whenFalse =>
              rw [renderWithin, runFrom_bind, runFrom_test]
              rcases hAvoids.conditional with ⟨hTrue, hFalse⟩
              cases c.eval s.memory with
              | error f => rfl
              | ok v =>
                  simp only
                  split
                  · exact ih (hTrue.append hAvoids.tail) s
                  · exact ih (hFalse.append hAvoids.tail) s
          | alternative mode items m =>
              rw [renderWithin, runFrom_bind]
              have hOther : number ≠ m := fun hSame =>
                hAvoids.head (m, items.length) rfl hSame.symm
              have hCounted :=
                timesShown_nextItem mode items.length m number s
              rw [if_neg hOther] at hCounted
              generalize (nextItem mode items.length m).runFrom
                s = next at hCounted
              rcases next with ⟨_ | _ | i, s'⟩
              · exact hCounted
              · exact (ih hAvoids.tail s').trans hCounted
              · simp only [itemAt]
                generalize hItem : itemAt? items i = item?
                cases item? with
                | none => exact hCounted
                | some item =>
                    have hPart :=
                      hAvoids.item (mem_of_itemAt? hItem)
                    exact (ih (hPart.append hAvoids.tail)
                      s').trans hCounted
          | divert d => rfl

end BranchingStory

------------------------------------------------------------
-- Plays In Step
------------------------------------------------------------

namespace BranchingStory

open Play

/-
  Whether two states remember the same, and some alternatives
  have been shown as often in one of them as those with larger
  numbers in the other.
-/
structure State.IsInStep
    (k : Nat)
    (P : Nat → Prop)
    (s s' : State) : Prop where
  memory : s'.memory = s.memory
  shown : ∀ n, P n → s'.timesShown (n + k) = s.timesShown n

namespace Play

variable {α β : Type}

/-
  Whether a play echoes another one: from a state in step it
  comes to a state in step with the same outcome, as long as
  the other one is not stopped.
-/
def Echoes
    (k : Nat)
    (P : Nat → Prop)
    (p p' : Play α) : Prop :=
  ∀ s s', s.IsInStep k P s' →
    ∀ a s₁, p.runFrom s = (.ok a, s₁) →
      ∃ s₁', p'.runFrom s' = (.ok a, s₁') ∧
        s₁.IsInStep k P s₁'

namespace Echoes

variable {k : Nat}
variable {P : Nat → Prop}

theorem pure
    (a : α) :
    Echoes k P (Pure.pure a) (Pure.pure a) := by
  intro s s' hInStep b s₁ hRun
  cases hRun
  exact ⟨s', rfl, hInStep⟩

/- Plays that echo may follow one another. -/
theorem bind
    {p p' : Play α}
    {f f' : α → Play β}
    (hFirst : Echoes k P p p')
    (hThen : ∀ a, Echoes k P (f a) (f' a)) :
    Echoes k P (p >>= f) (p' >>= f') := by
  intro s s' hInStep b s₂ hRun
  rcases runFrom_bind_ok.mp hRun with ⟨a, s₁, hRun₁, hRun₂⟩
  rcases hFirst s s' hInStep a s₁ hRun₁ with
    ⟨s₁', hRun₁', hInStep₁⟩
  rcases hThen a s₁ s₁' hInStep₁ b s₂ hRun₂ with
    ⟨s₂', hRun₂', hInStep₂⟩
  exact ⟨s₂', runFrom_bind_ok.mpr ⟨a, s₁', hRun₁', hRun₂'⟩,
    hInStep₂⟩

/- An expression has the same value. -/
theorem evaluate
    (e : Expr) :
    Echoes k P (BranchingStory.evaluate e)
      (BranchingStory.evaluate e) := by
  intro s s' hInStep v s₁ hRun
  rcases evaluate_ok.mp hRun with ⟨hValue, rfl⟩
  rw [← hInStep.memory] at hValue
  exact ⟨s', evaluate_ok.mpr ⟨hValue, rfl⟩, hInStep⟩

/- A condition holds in both states or in none. -/
theorem test
    (e : Expr) :
    Echoes k P (BranchingStory.test e)
      (BranchingStory.test e) := by
  intro s s' hInStep holds s₁ hRun
  rcases test_ok.mp hRun with ⟨⟨v, hValue, hHolds⟩, rfl⟩
  rw [← hInStep.memory] at hValue
  exact ⟨s', test_ok.mpr ⟨⟨v, hValue, hHolds⟩, rfl⟩, hInStep⟩

/- A value is written alike. -/
theorem textOf
    (v : Value) :
    Echoes k P (BranchingStory.textOf v)
      (BranchingStory.textOf v) := by
  intro s s' hInStep t s₁ hRun
  rcases textOf_ok.mp hRun with ⟨hText, rfl⟩
  exact ⟨s', textOf_ok.mpr ⟨hText, rfl⟩, hInStep⟩

/-
  Alternatives that have been shown as often show the same
  item next, unless they are shuffles.
-/
theorem nextItem
    {mode : Mode}
    {number : Nat}
    (hMode : mode ≠ .shuffle)
    (hOf : P number)
    (size : Nat) :
    Echoes k P (BranchingStory.nextItem mode size number)
      (BranchingStory.nextItem mode size (number + k)) := by
  intro s s' hInStep i? s₁ hRun
  have hSame := hInStep.shown number hOf
  have hCounted :
      State.IsInStep k P
        ((BranchingStory.nextItem mode size number).runFrom
          s).2
        ((BranchingStory.nextItem mode size
          (number + k)).runFrom s').2 := by
    constructor
    · rw [(nextItem_passes _ _ _ _).memory_eq,
        (nextItem_passes _ _ _ _).memory_eq]
      exact hInStep.memory
    · intro n hMem
      rw [timesShown_nextItem, timesShown_nextItem]
      by_cases hNumber : n = number
      · rw [if_pos hNumber, if_pos (congrArg (· + k) hNumber),
          hSame]
      · rw [if_neg hNumber,
          if_neg fun hBoth =>
            hNumber (Nat.add_right_cancel hBoth),
          hInStep.shown n hMem]
  have hOutcome :
      ((BranchingStory.nextItem mode size
          (number + k)).runFrom s').1 =
        ((BranchingStory.nextItem mode size number).runFrom
          s).1 := by
    unfold State.timesShown at hSame
    rw [runFrom_nextItem hMode, runFrom_nextItem hMode]
    simp only [hSame]
  rw [hRun] at hCounted hOutcome
  generalize (BranchingStory.nextItem mode size
    (number + k)).runFrom s' = next at hCounted hOutcome
  rcases next with ⟨r, s₁'⟩
  cases hOutcome
  exact ⟨s₁', rfl, hCounted⟩

/- Renderings one after the other are echoed one by one. -/
theorem untilDivert
    {p p' q q' : Play (String × Option Divert)}
    (hFirst : Echoes k P p p')
    (hThen : Echoes k P q q') :
    Echoes k P (BranchingStory.untilDivert p q)
      (BranchingStory.untilDivert p' q') := by
  refine hFirst.bind fun r => ?_
  rcases r with ⟨text, _ | d⟩
  · exact hThen.bind fun r' => .pure _
  · exact .pure _

end Echoes

end Play

end BranchingStory

------------------------------------------------------------
-- Rendering An Echo
------------------------------------------------------------

namespace BranchingStory

open Play

variable {k : Nat}
variable {P : Nat → Prop}

/- Whether a fragment is no shuffle, and has a number as said. -/
def Fragment.IsSteady
    (P : Nat → Prop)
    (f : Fragment) : Prop :=
  ∀ mode items number, f = .alternative mode items number →
    mode ≠ .shuffle ∧ P number

namespace Fragment

mutual

/- A fragment with a larger number is rendered alike. -/
theorem renderNested_echoes
    (f : Fragment)
    (hSteady : All (IsSteady P) [f]) :
    Echoes k P (renderNested f) (renderNested (f.shift k)) := by
  cases f with
  | text s =>
      rw [shift]
      · exact .pure _
      all_goals simp
  | insertion e =>
      rw [shift]
      · exact (Echoes.evaluate e).bind fun v =>
          (Echoes.textOf v).bind fun t => .pure _
      all_goals simp
  | conditional c t f =>
      rcases hSteady.conditional with ⟨hTrue, hFalse⟩
      rw [shift, renderNested, renderNested]
      refine (Echoes.test c).bind fun holds => ?_
      cases holds with
      | true => exact renderNestedAll_echoes t hTrue
      | false => exact renderNestedAll_echoes f hFalse
  | alternative mode items number =>
      rcases hSteady.head mode items number rfl with
        ⟨hMode, hOf⟩
      have hItems :=
        renderNestedItems_echoes items fun item hItem =>
          hSteady.item hItem
      rw [shift, renderNested_alternative,
        renderNested_alternative, shiftItems_eq_map,
        List.length_map]
      refine (Echoes.nextItem hMode hOf _).bind fun i? => ?_
      cases i? with
      | none => exact .pure _
      | some i =>
          dsimp only
          rw [itemAt_map, bind_map_left]
          intro s s' hInStep r s₁ hRun
          rcases runFrom_bind_ok.mp hRun with
            ⟨item, s₂, hAt, hShown⟩
          rcases itemAt_ok.mp hAt with ⟨hItem, rfl⟩
          rcases hItems item (mem_of_itemAt? hItem) _ s'
              hInStep r s₁ hShown with
            ⟨s₁', hShown', hInStep'⟩
          exact ⟨s₁', runFrom_bind_ok.mpr ⟨item, s',
            itemAt_ok.mpr ⟨hItem, rfl⟩, hShown'⟩, hInStep'⟩
  | divert d =>
      rw [shift]
      · exact .pure _
      all_goals simp

/- So are fragments one after the other. -/
theorem renderNestedAll_echoes
    (fs : List Fragment)
    (hSteady : All (IsSteady P) fs) :
    Echoes k P (renderNestedAll fs)
      (renderNestedAll (shiftAll k fs)) := by
  cases fs with
  | nil => exact .pure _
  | cons f fs =>
      have hFirst : All (IsSteady P) [f] := by
        intro g hMem
        rw [walkAll_singleton] at hMem
        exact hSteady g (by
          rw [walkAll]
          exact List.mem_append_left _ hMem)
      rw [shiftAll, renderNestedAll, renderNestedAll]
      exact (renderNested_echoes f hFirst).untilDivert
        (renderNestedAll_echoes fs hSteady.tail)

/- So are the items of an alternative. -/
theorem renderNestedItems_echoes
    (items : List (List Fragment))
    (hSteady : ∀ item ∈ items, All (IsSteady P) item) :
    ∀ item ∈ items,
      Echoes k P (renderNestedAll item)
        (renderNestedAll (shiftAll k item)) := by
  cases items with
  | nil => exact fun item hNone => nomatch hNone
  | cons fs items =>
      rw [List.forall_mem_cons] at hSteady ⊢
      exact ⟨renderNestedAll_echoes fs hSteady.1,
        renderNestedItems_echoes items hSteady.2⟩

end

end Fragment

/- Text and diverts at the end are rendered to the text. -/
theorem renderNestedAll_end
    (cs : List Char)
    {tail : List Fragment}
    (hTail : ∀ f ∈ tail, ∃ d, f = .divert d) :
    ∃ d, Fragment.renderNestedAll (textFragment cs ++ tail) =
      pure (String.ofList cs, d) := by
  have hDiverts :
      ∃ d, Fragment.renderNestedAll tail = pure ("", d) := by
    cases tail with
    | nil => exact ⟨none, rfl⟩
    | cons f rest =>
        rcases hTail f List.mem_cons_self with ⟨d, rfl⟩
        exact ⟨some d, untilDivert_divert "" d⟩
  rcases hDiverts with ⟨d, hDiverts⟩
  refine ⟨d, ?_⟩
  cases cs with
  | nil => exact hDiverts
  | cons c cs =>
      rw [textFragment, List.singleton_append,
        Fragment.renderNestedAll, Fragment.renderNested,
        hDiverts, untilDivert_text]
      · simp
      · simp

/-
  An echo is rendered to the text of the content and maybe
  further blanks.
-/
theorem render_echo
    {fs fs' : List Fragment}
    (hEcho : Fragment.Echo k fs fs')
    (hSteady : Fragment.All (Fragment.IsSteady P) fs)
    {s s' : State}
    (hInStep : s.IsInStep k P s')
    {text : String}
    {d : Option Divert}
    {s₁ : State}
    (hRun : (render fs).runFrom s = (.ok (text, d), s₁)) :
    ∃ blanks d' s₁',
      (render fs').runFrom s' =
        (.ok (text ++ String.ofList blanks, d'), s₁') ∧
      ∀ c ∈ blanks, isBlank c = true := by
  rcases hEcho with
    ⟨body, last, blanks, tail, rfl, rfl, hBlanks, hTail⟩
  have hNone : ∀ f ∈ [], ∃ d, f = Fragment.divert d :=
    fun f hMem => nomatch hMem
  rcases renderNestedAll_end last hNone with ⟨d₀, hLast⟩
  rcases renderNestedAll_end (last ++ blanks) hTail with
    ⟨d₁, hTold⟩
  have hBody : Fragment.All (Fragment.IsSteady P) body :=
    fun f hMem => hSteady f (by
      rw [Fragment.walkAll_append]
      exact List.mem_append_left _ hMem)
  rw [List.append_nil] at hLast
  rw [render, renderWithin_eq_nested _ _ (Nat.le_refl _),
    Fragment.renderNestedAll_append, hLast] at hRun
  rcases runFrom_bind_ok.mp hRun with
    ⟨⟨text', d'⟩, s₂, hInner, hRest⟩
  rcases Fragment.renderNestedAll_echoes body hBody s s' hInStep
      _ s₂ hInner with
    ⟨s₂', hInner', _⟩
  rw [render, renderWithin_eq_nested _ _ (Nat.le_refl _),
    List.append_assoc, Fragment.renderNestedAll_append, hTold]
  cases d' with
  | some d' =>
      cases hRest
      refine ⟨[], some d', s₂', runFrom_bind_ok.mpr
        ⟨_, s₂', hInner', ?_⟩, by simp⟩
      simp
  | none =>
      cases hRest
      refine ⟨blanks, d₁, s₂', runFrom_bind_ok.mpr
        ⟨_, s₂', hInner', ?_⟩, hBlanks⟩
      rw [String.ofList_append, String.append_assoc]
      rfl

end BranchingStory
