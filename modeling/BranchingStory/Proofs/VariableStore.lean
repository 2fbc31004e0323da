import BranchingStory.Proofs.Histories

/-
  This file shows that the variables of a story keep to their
  declarations.  The script, the player and the saves all
  write to them, and none of these writes changes a constant,
  the kind of a variable or that diverts lead to places.

  Key definitions include:
    * `Outline.SparesConstants`
    * `State.Writes`
    * `State.KeepsConstants`

  Key theorems include:
    * `Outline.IsChecked.sparesConstants`
    * `State.Turns.writes`
    * `Unfolds.keepsConstants`
    * `Unfolds.hasAddress_of_diverted`
    * `variables_keep_declarations`
-/

------------------------------------------------------------
-- Constants Of A Script
------------------------------------------------------------

namespace BranchingStory

/- Whether a name is that of no constant. -/
def Outline.IsFree
    (o : Outline)
    (name : String) : Prop :=
  ∀ d, o.vars.lookup name = some d → d.constant = false

/- Whether no part of an outline assigns to a constant. -/
def Outline.SparesConstants
    (o : Outline) : Prop :=
  ∀ id name value, (id, .assign name value) ∈ o.leaves →
    o.IsFree name

variable {o : Outline}

/- A constant is one also when it is resolved. -/
theorem Declaration.constant_resolve
    (o : Outline)
    (d : Declaration) :
    (d.resolve o).constant = d.constant := by
  unfold resolve
  split
  · split
    · rfl
    · rfl
  · rfl

/- What is checked spares the constants. -/
theorem Outline.IsChecked.sparesConstants
    (hChecked : o.IsChecked)
    (hAttached : o.detached = []) :
    o.resolve.SparesConstants := by
  intro id name value hLeaf d hLookup
  rcases mem_leaves_resolve hAttached hLeaf with
    ⟨k, hKnot, ⟨n, l⟩, hMem, hSame⟩
  have hResolved : .assign name value = l.resolve o k.name :=
    congrArg Prod.snd hSame
  cases l with
  | assign name' value' =>
      cases hResolved
      rcases
          (hChecked.leaves k hKnot _ hMem).assigned name value'
            rfl with
        ⟨d', hDeclared, hVariable, _⟩
      rw [vars_lookup_resolve, hDeclared] at hLookup
      cases hLookup
      rw [Declaration.constant_resolve, hVariable]
  | block => cases hResolved
  | line content => cases hResolved
  | choice c => cases hResolved

/- Every story that can be read spares its constants. -/
theorem Story.sparesConstants_of_read
    {source : String}
    {story : Story}
    (hRead : Story.read source = .ok story) :
    story.outline.SparesConstants := by
  rcases Story.read_ok hRead with
    ⟨o, numbered, hOutline, hFrom⟩
  rw [hOutline]
  exact hFrom.isChecked.sparesConstants hFrom.isBuilt.attached

end BranchingStory

------------------------------------------------------------
-- Writing
------------------------------------------------------------

namespace BranchingStory

variable {o : Outline}
variable {h new : List Happening}
variable {s s' : State}

/-
  How a turn writes to the variables: not at all, or a value
  to one that is no constant.
-/
inductive State.Writes
    (o : Outline)
    (s s' : State) : Prop where
  | none
      (hVars : s'.memory.vars = s.memory.vars)
  | one
      (name : String)
      (v : Value)
      (hFree : o.IsFree name)
      (hVars :
        s'.memory.vars = s.memory.vars.insert name v)

/- To show items writes nothing. -/
theorem State.Shows.vars_eq
    {shown : List Showing}
    (hShows : State.Shows o s shown s') :
    s'.memory.vars = s.memory.vars := by
  rcases hShows.passes with ⟨g, cursors, orders, rfl⟩
  rfl

/- A step writes to no constant. -/
theorem State.Changes.writes
    (hChanges : s.Changes o new s')
    (hSpares : o.SparesConstants) :
    s.Writes o s' := by
  cases hChanges with
  | enter stitch hFrames => exact Writes.none rfl
  | leave f g fs hFrames => exact Writes.none rfl
  | finish f hFrames => exact Writes.none rfl
  | pass f fs shown s' hFrames hShows =>
      exact Writes.none hShows.vars_eq
  | divert f fs shown s₁ a hFrames hShows =>
      exact Writes.none hShows.vars_eq
  | conclude f fs shown s₁ hFrames hShows =>
      exact Writes.none hShows.vars_eq
  | assign f fs id name value v hFrames hLeaf =>
      exact Writes.one name v (hSpares id name value hLeaf) rfl
  | present f fs shown s₁ offers hFrames hShows hFresh =>
      exact Writes.none hShows.vars_eq
  | take f fs shown s₁ b hFrames hShows hBranch hFresh =>
      exact Writes.none hShows.vars_eq
  | stick f fs shown s' hFrames hShows =>
      exact Writes.none hShows.vars_eq

/- A turn writes to no constant. -/
theorem State.Turns.writes
    (hTurns : s.Turns o h new s')
    (hSpares : o.SparesConstants) :
    s.Writes o s' := by
  cases hTurns with
  | begin hReady => exact Writes.none rfl
  | step new s' hReady hWaiting hChanges =>
      exact hChanges.writes hSpares
  | cut => exact Writes.none rfl
  | choose x f fs hOffer hPresenting hFrames =>
      exact Writes.none rfl
  | move a hSettled => exact Writes.none rfl
  | assign name d v hLookup hVariable =>
      refine Writes.one name v ?_ rfl
      intro d' hLookup'
      rw [hLookup] at hLookup'
      cases hLookup'
      exact hVariable

end BranchingStory

------------------------------------------------------------
-- Constants In A State
------------------------------------------------------------

namespace BranchingStory

/- Whether all constants hold what they were declared with. -/
def State.KeepsConstants
    (o : Outline)
    (s : State) : Prop :=
  ∀ name d, o.vars.lookup name = some d →
    d.constant = true →
      s.memory.vars.lookup name = some d.initial

variable {o : Outline}
variable {h : List Happening}
variable {s s' : State}

/- Constants are kept where nothing is written to them. -/
theorem State.Writes.keepsConstants
    (hWrites : s.Writes o s')
    (hKeeps : s.KeepsConstants o) :
    s'.KeepsConstants o := by
  intro name d hLookup hConstant
  cases hWrites with
  | none hVars =>
      rw [hVars]
      exact hKeeps name d hLookup hConstant
  | one written v hFree hVars =>
      have hOther : written ≠ name := by
        rintro rfl
        rw [hFree d hLookup] at hConstant
        cases hConstant
      rw [hVars, Table.lookup_insert, if_neg hOther]
      exact hKeeps name d hLookup hConstant

/- Constants are kept all along. -/
theorem Unfolds.keepsConstants
    (hUnfolds : Unfolds o h s)
    (hSpares : o.SparesConstants) :
    s.KeepsConstants o := by
  induction hUnfolds with
  | start seed =>
      intro name d hLookup hConstant
      change (o.vars.mapValues _).lookup name = _
      rw [Table.lookup_mapValues, hLookup]
      rfl
  | turn hUnfolds hTurns hFits ih =>
      exact (hTurns.writes hSpares).keepsConstants ih

end BranchingStory

------------------------------------------------------------
-- Diverts
------------------------------------------------------------

namespace BranchingStory

open Play

variable {o : Outline}
variable {h new : List Happening}
variable {s s' : State}

/- A turn that follows a divert comes to its place. -/
theorem State.Turns.location_of_diverted
    (hTurns : s.Turns o h new s')
    {a : Address}
    (hDiverted : .diverted a ∈ new) :
    s'.location = a := by
  cases hTurns with
  | step new s' hReady hWaiting hChanges =>
      cases hChanges with
      | divert f fs shown s₁ b hFrames hShows =>
          simp only [List.mem_append, List.mem_map,
            List.mem_singleton] at hDiverted
          rcases hDiverted with ⟨x, _, hNever⟩ | hSame
          · cases hNever
          · cases hSame
            rfl
      | _ => simp at hDiverted
  | _ => simp at hDiverted

/- Every divert that is followed leads to a place. -/
theorem Unfolds.hasAddress_of_diverted
    (hUnfolds : Unfolds o h s)
    {a : Address}
    (hDiverted : .diverted a ∈ h) :
    o.hasAddress a = true := by
  induction hUnfolds with
  | start seed => cases hDiverted
  | turn hUnfolds hTurns hFits ih =>
      rcases List.mem_append.mp hDiverted with hBefore | hNew
      · exact ih hBefore
      · rw [← hTurns.location_of_diverted hNew]
        exact hFits.coherent.location

/- A value of the kind of diverts is a divert. -/
theorem Value.eq_divert_of_kind
    {v : Value}
    (hKind : v.kind = .divert) :
    ∃ path, v = .divert path := by
  cases v with
  | divert path => exact ⟨path, rfl⟩
  | int n => cases hKind
  | float x => cases hKind
  | bool b => cases hKind
  | string s => cases hKind

/-
  A divert through a variable leads to a place wherever the
  variables fit their declarations.
-/
theorem divertPlace?_throughVariable
    (hSound : o.IsSound)
    (hFits : s.memory.Fits o o.IsPath)
    {d : Divert}
    (hDivert : .divert d ∈ o.fragments)
    {name : String}
    (hThrough : d.destination = some (.throughVariable name))
    (hVars : s'.memory.vars = s.memory.vars) :
    ∃ a, (divertPlace? d).runFrom s' = (.ok (some a), s') ∧
      o.hasAddress a = true := by
  rcases List.mem_flatMap.mp hDivert with ⟨p, hLeaf, hMem⟩
  rcases (hSound.leaves p hLeaf).fragments _ hMem with
    ⟨destination, hSome, hExists⟩
  rw [hThrough] at hSome
  cases hSome
  rcases hExists with ⟨declared, hLookup, hKind⟩
  rcases hFits name declared hLookup with ⟨v, hValue, hOfKind⟩
  rcases Value.eq_divert_of_kind
    (hOfKind.kind.trans hKind) with ⟨path, rfl⟩
  refine ⟨.ofPath path, ?_,
    hSound.hasAddress_ofPath (hOfKind.path path rfl)⟩
  unfold divertPlace?
  simp only [hThrough, runFrom_bind, runFrom_get, hVars,
    hValue]
  rfl

end BranchingStory

------------------------------------------------------------
-- Variables
------------------------------------------------------------

namespace BranchingStory

open Play

/-
  Wherever a story that can be read comes to, its variables
  are those that it declares.  Each holds a value of its kind,
  a constant the one that it was declared with, and a variable
  for diverts the path of a place that exists.  A divert
  through a variable leads to such a place, in whatever state
  has these variables, and so has every divert that has been
  followed in the history of the state.
-/
theorem variables_keep_declarations
    {source : String}
    {story : Story}
    (hRead : Story.read source = .ok story)
    {s : State}
    (hReachable : Reachable story.outline s) :
    s.memory.vars.keys = story.outline.vars.keys ∧
    (∀ name d, story.outline.vars.lookup name = some d →
      ∃ v, s.memory.vars.lookup name = some v ∧
        v.kind = d.initial.kind ∧
        (d.constant = true → v = d.initial) ∧
        (d.initial.kind = .divert → ∃ a,
          story.outline.hasAddress a = true ∧
            v = .divert a.path)) ∧
    (∀ d name, .divert d ∈ story.outline.fragments →
      d.destination = some (.throughVariable name) →
      ∀ s', s'.memory.vars = s.memory.vars →
        ∃ a,
          (divertPlace? d).runFrom s' = (.ok (some a), s') ∧
            story.outline.hasAddress a = true) ∧
    (∀ h, History story.outline h s →
      ∀ a, .diverted a ∈ h →
        story.outline.hasAddress a = true) := by
  have hSound := Story.isSound_of_read hRead
  have hSpares := Story.sparesConstants_of_read hRead
  have hFits := hReachable.fits hSound
  rcases reachable_iff_history.mp hReachable with
    ⟨h, hHistory⟩
  have hKeeps :=
    (hHistory.unfolds hSound).1.keepsConstants hSpares
  refine ⟨hFits.sound.names, ?_, ?_, ?_⟩
  · intro name d hLookup
    rcases hFits.sound.fits name d hLookup with
      ⟨v, hValue, hOfKind⟩
    refine ⟨v, hValue, hOfKind.kind, ?_, ?_⟩
    · intro hConstant
      rw [hKeeps name d hLookup hConstant] at hValue
      exact (Option.some.inj hValue).symm
    · intro hDivert
      rcases Value.eq_divert_of_kind
        (hOfKind.kind.trans hDivert) with ⟨path, rfl⟩
      rcases hOfKind.path path rfl with ⟨a, hAddress, rfl⟩
      exact ⟨a, hAddress, rfl⟩
  · intro d name hDivert hThrough s' hVars
    exact divertPlace?_throughVariable hSound hFits.sound.fits
      hDivert hThrough hVars
  · intro h' hHistory' a hDiverted
    exact (hHistory'.unfolds hSound).1.hasAddress_of_diverted
      hDiverted

/-
  A story that goes on through a variable: behind the divert
  the constant holds what it was declared with, the variable
  for diverts leads to a place, and so has the divert.
-/
theorem variables_keep_declarations_goal :
    ∃ story s h a,
      Story.read ("CONST cap = 5\nVAR goal = -> den\n" ++
          "== hub\n-> goal\n== den\nHi\n") = .ok story ∧
        Reachable story.outline s ∧
        History story.outline h s ∧ .diverted a ∈ h ∧
        story.outline.hasAddress a = true ∧
        s.memory.vars.lookup "cap" = some (.int 5) ∧
        ∃ b, story.outline.hasAddress b = true ∧
          s.memory.vars.lookup "goal" =
            some (.divert b.path) := by
  have hCheck :
      (match
        Story.read ("CONST cap = 5\nVAR goal = -> den\n" ++
          "== hub\n-> goal\n== den\nHi\n") with
        | .error _ => false
        | .ok story =>
            let o := story.outline
            let h := [] ++ resumeHistory o 9 (.start o 0)
            (h.any fun x => x matches .diverted _) &&
              ((o.vars.lookup "cap").any fun d =>
                d.constant && d.initial = .int 5) &&
              (o.vars.lookup "goal").any fun d =>
                d.initial.kind = .divert) = true := by
    decide +kernel
  cases hRead :
      Story.read ("CONST cap = 5\nVAR goal = -> den\n" ++
        "== hub\n-> goal\n== den\nHi\n") with
  | error e =>
      rw [hRead] at hCheck
      cases hCheck
  | ok story =>
      rw [hRead] at hCheck
      have hHistory :=
        (History.start (o := story.outline) 0).resume 9
      have hReachable :=
        (Reachable.start (o := story.outline) 0).resume 9
      simp only [Bool.and_eq_true, List.any_eq_true,
        Option.any_eq_true, decide_eq_true_eq] at hCheck
      rcases hCheck with
        ⟨⟨⟨x, hMem, hDiverted⟩, d, hCap, hConstant, hFive⟩,
          d', hGoal, hKind⟩
      rcases variables_keep_declarations hRead hReachable with
        ⟨_, hDeclared, _, hLands⟩
      rcases hDeclared "cap" d hCap with
        ⟨v, hValue, _, hKept, _⟩
      rcases hDeclared "goal" d' hGoal with
        ⟨v', hValue', _, _, hPlace⟩
      rcases hPlace hKind with ⟨b, hAddress, rfl⟩
      rw [hKept hConstant, hFive] at hValue
      cases x with
      | diverted a =>
          exact ⟨story, _, _, a, rfl, hReachable, hHistory,
            hMem, hLands _ hHistory a hMem, hValue, b,
            hAddress, hValue'⟩
      | resumed => cases hDiverted
      | moved a => cases hDiverted
      | cut => cases hDiverted
      | took branch => cases hDiverted
      | showed x => cases hDiverted

end BranchingStory
