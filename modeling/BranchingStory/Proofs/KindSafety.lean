import BranchingStory.Play.Follow
import BranchingStory.Proofs.Accepted
import BranchingStory.Proofs.Actions

/-
  This file shows that the kinds of a story that can be read
  are kept when it is played: every expression evaluates to a
  value of the kind that was found for it, and assignments
  never meet a value of another kind.

  Key definitions include:
    * `Knot.expressions`
    * `Knot.assignments`
    * `Expr.IsInferred`
    * `Memory.KeepsKinds`

  Key theorems include:
    * `assign_ends`
    * `Outline.ComesFrom.exists_kind`
    * `expressions_keep_kinds`
-/

------------------------------------------------------------
-- Expressions Of A Story
------------------------------------------------------------

namespace BranchingStory

/- All expressions of a knot, at any depth. -/
def Knot.expressions
    (k : Knot) : List Expr :=
  k.leaves.flatMap fun p => p.2.expressions

/- The variable and the expression of an assignment. -/
def Leaf.assignment? : Leaf → Option (String × Expr)
  | .assign name value => some (name, value)
  | _ => none

/- All assignments of a knot, at any depth. -/
def Knot.assignments
    (k : Knot) : List (String × Expr) :=
  k.leaves.filterMap fun p => p.2.assignment?

/-
  Whether a kind is the one that the check finds for an
  expression within a knot.
-/
def Expr.IsInferred
    (o : Outline)
    (knot : String)
    (k : Kind)
    (e : Expr) : Prop :=
  ∀ line d,
    (e.checkKind o knot line).run d = .ok (some k, d)

/- Whether every declared variable has a value of its kind. -/
def Memory.KeepsKinds
    (o : Outline)
    (m : Memory) : Prop :=
  ∀ name d, o.vars.lookup name = some d →
    ∃ v, m.vars.lookup name = some v ∧
      v.kind = d.initial.kind

/- A memory that keeps the kinds holds values that fit. -/
theorem Memory.KeepsKinds.fits
    {o : Outline}
    {m : Memory}
    (hKeeps : m.KeepsKinds o) :
    m.Fits o fun _ => True := by
  intro name d hLookup
  rcases hKeeps name d hLookup with ⟨v, hValue, hKind⟩
  exact ⟨v, hValue, hKind, fun _ _ => trivial⟩

variable {o : Outline}
variable {knot : String}

/- Every variable starts with a value of its kind. -/
theorem Memory.keepsKinds_start
    (o : Outline)
    (seed : Int) :
    (State.start o seed).memory.KeepsKinds o := by
  intro name d hLookup
  refine ⟨d.initial, ?_, rfl⟩
  rw [State.start, Table.lookup_mapValues, hLookup]
  rfl

/- The expressions of a part that is checked have kinds. -/
theorem Leaf.IsCheckedIn.isKindedIn
    {l : Leaf}
    (hChecked : l.IsCheckedIn o knot)
    {e : Expr}
    (hMem : e ∈ l.expressions) :
    e.IsKindedIn o knot := by
  rw [Leaf.expressions, List.mem_append] at hMem
  rcases hMem with hMem | hMem
  · cases l with
    | assign name value =>
        rw [Leaf.ownExpressions, List.mem_singleton] at hMem
        subst hMem
        rcases hChecked.assigned name e rfl with
          ⟨d, _, _, hKind⟩
        exact fun hPlain => ⟨_, hKind hPlain⟩
    | choice c => exact hChecked.conditions c rfl e hMem
    | block => cases hMem
    | line content => cases hMem
  · rcases List.mem_filterMap.mp hMem with
      ⟨f, hFragment, hExpr⟩
    have hFragment' := hChecked.fragments f hFragment
    cases f with
    | insertion e' =>
        cases hExpr
        exact hFragment'
    | conditional c t f =>
        cases hExpr
        exact hFragment'
    | text s => cases hExpr
    | alternative m items n => cases hExpr
    | divert d => cases hExpr

end BranchingStory

------------------------------------------------------------
-- Evaluation In A State
------------------------------------------------------------

namespace BranchingStory

open Play

variable {o : Outline}
variable {P : String → Prop}

/- An expression of a kind yields a value of that kind. -/
theorem evaluate_ends
    {e : Expr}
    {k : Kind}
    {s : State}
    (hKind : HasKind o e k)
    (hPaths : ∀ a, o.hasAddress a = true → P a.path)
    (hFits : s.memory.Fits o P) :
    Ends (evaluate e) s
      (fun v s' => v.Fits P k ∧ s' = s)
      (fun fault s' => s' = s ∧
        ∃ f, fault = .evaluation f ∧
          f.isNumeric = true) := by
  have hEval := hKind.eval hPaths hFits
  unfold evaluate
  rw [ends_bind, ends_get]
  cases hResult : e.eval s.memory with
  | ok v =>
      rw [hResult] at hEval
      exact ⟨hEval, rfl⟩
  | error f =>
      rw [hResult] at hEval
      exact ⟨rfl, f, rfl, hEval⟩

/-
  An assignment of an expression of the declared kind sets the
  variable, unless arithmetic fails.
-/
theorem assign_ends
    {name : String}
    {value : Expr}
    {d : Declaration}
    {s : State}
    (hLookup : o.vars.lookup name = some d)
    (hKind : HasKind o value d.initial.kind)
    (hPaths : ∀ a, o.hasAddress a = true → P a.path)
    (hFits : s.memory.Fits o P) :
    Ends (assign o name value) s
      (fun _ s' => ∃ v, v.Fits P d.initial.kind ∧
        s' = s.setVariable name v)
      (fun fault s' => s' = s ∧
        ∃ f, fault = .evaluation f ∧
          f.isNumeric = true) := by
  unfold assign
  rw [ends_bind]
  refine (evaluate_ends hKind hPaths hFits).mono ?_ ?_
  · rintro v s' ⟨hValue, rfl⟩
    simp only [hLookup, hValue.kind, if_true]
    rw [ends_modify]
    exact ⟨v, hValue, rfl⟩
  · intro fault s' hFault
    exact hFault

end BranchingStory

------------------------------------------------------------
-- Safety
------------------------------------------------------------

namespace BranchingStory

open Play

variable {o : Outline}
variable {source : String}
variable {numbered : Nat}

/- What is in a block of a story belongs to one of its knots. -/
theorem Outline.ComesFrom.mem_leaves
    (hFrom : o.ComesFrom source numbered)
    {id : Nat}
    {items : List Item}
    (hBlock : o.resolve.block? id = some items)
    {p : Nat × Leaf}
    (hLeaf : p ∈ itemLeaves items) :
    ∃ knot ∈ o.resolve.knots.values, p ∈ knot.leaves := by
  have hMem := Outline.itemLeaves_block_subset hBlock hLeaf
  have hNone : o.resolve.detached = [] :=
    hFrom.isBuilt.attached
  rw [Outline.leaves_eq, hNone, List.flatMap_nil,
    List.append_nil] at hMem
  exact List.mem_flatMap.mp hMem

/- The check finds a kind for each expression of a story. -/
theorem Outline.ComesFrom.exists_kind
    (hFrom : o.ComesFrom source numbered)
    {knot : Knot}
    (hKnot : knot ∈ o.resolve.knots.values)
    {e : Expr}
    (hExpr : e ∈ knot.expressions) :
    ∃ k, e.IsInferred o.resolve knot.name k ∧
      HasKind o.resolve e k := by
  rw [Outline.resolve, Table.values_mapValues] at hKnot
  rcases List.mem_map.mp hKnot with ⟨knot, hMem, rfl⟩
  rw [Knot.expressions, Knot.leaves_resolve,
    List.flatMap_map, List.mem_flatMap] at hExpr
  rcases hExpr with ⟨p, hLeaf, hExpr⟩
  rw [resolveLeaf, Leaf.expressions_resolve,
    List.mem_map] at hExpr
  rcases hExpr with ⟨e, hOwn, rfl⟩
  -- The check reached the part that the expression is in.
  have hPlain := hFrom.isBuilt.leaves.plain p
    (Outline.mem_leaves_of_knot hMem hLeaf) e hOwn
  rcases
      (hFrom.isChecked.leaves knot hMem p hLeaf).isKindedIn
        hOwn hPlain with
    ⟨k, hKind⟩
  refine ⟨k, ?_, hKind.hasKind.resolve⟩
  intro line d
  rw [← hKind.run line d]
  exact congrArg (fun r => StateT.run r d)
    (Expr.checkKind_resolve o knot.name line e)

/- What is assigned has the kind of the variable. -/
theorem Outline.ComesFrom.assignment_hasKind
    (hFrom : o.ComesFrom source numbered)
    {knot : Knot}
    (hKnot : knot ∈ o.resolve.knots.values)
    {name : String}
    {value : Expr}
    (hAssign : (name, value) ∈ knot.assignments) :
    ∃ d, o.resolve.vars.lookup name = some d ∧
      HasKind o.resolve value d.initial.kind := by
  rcases List.mem_filterMap.mp hAssign with
    ⟨⟨id, l⟩, hLeaf, hValue⟩
  have hSound :=
    (hFrom.isBuilt.isSound_resolve hFrom.isChecked).leaves _
      (Outline.mem_leaves_of_knot hKnot hLeaf)
  cases l with
  | assign name' value' =>
      cases hValue
      exact hSound.assigned name value rfl
  | block => cases hValue
  | line content => cases hValue
  | choice c => cases hValue

/-
  A story that can be read keeps kinds.  The check has found a
  kind for every expression, and as long as the variables keep
  their kinds, the expression has a value of that kind or
  fails for a reason of arithmetic.  Assignments fail for no
  other reason.  Whatever the story can come upon while it is
  played belongs to a knot, so that none of it goes unchecked.
-/
theorem expressions_keep_kinds
    {source : String}
    {story : Story}
    (hRead : Story.read source = .ok story) :
    (∀ id items, story.outline.block? id = some items →
      ∀ p ∈ itemLeaves items,
        ∃ knot ∈ story.outline.knots.values,
          p ∈ knot.leaves) ∧
    (∀ knot ∈ story.outline.knots.values,
      ∀ e ∈ knot.expressions, ∃ k,
        e.IsInferred story.outline knot.name k ∧
        ∀ m : Memory, m.KeepsKinds story.outline →
          (∀ v, e.eval m = .ok v → v.kind = k) ∧
          ∀ fault, e.eval m = .error fault →
            fault.isNumeric = true) ∧
    (∀ knot ∈ story.outline.knots.values,
      ∀ name value, (name, value) ∈ knot.assignments →
        ∀ s : State, s.memory.KeepsKinds story.outline →
          ∀ fault s',
            (assign story.outline name value).runFrom s =
              (.error fault, s') →
            ∃ f, fault = .evaluation f ∧
              f.isNumeric = true) := by
  rcases Story.read_ok hRead with
    ⟨o, numbered, hOutline, hFrom⟩
  rw [hOutline]
  have hTrivial :
      ∀ a, o.resolve.hasAddress a = true → True :=
    fun _ _ => trivial
  refine ⟨?_, ?_, ?_⟩
  · intro id items hBlock p hLeaf
    exact hFrom.mem_leaves hBlock hLeaf
  · intro knot hKnot e hExpr
    rcases hFrom.exists_kind hKnot hExpr with
      ⟨k, hInferred, hKind⟩
    refine ⟨k, hInferred, ?_⟩
    intro m hKeeps
    have hEval := hKind.eval hTrivial hKeeps.fits
    constructor
    · intro v hValue
      rw [hValue] at hEval
      exact hEval.kind
    · intro fault hFault
      rw [hFault] at hEval
      exact hEval
  · intro knot hKnot name value hAssign s hKeeps fault s' hRun
    rcases hFrom.assignment_hasKind hKnot hAssign with
      ⟨d, hLookup, hKind⟩
    have hEnds :=
      assign_ends hLookup hKind hTrivial hKeeps.fits
    exact (hEnds.of_error hRun).2

/-
  A script whose assignment divides by zero: the expression
  before it has the kind that was found, and the assignment
  fails for a reason of arithmetic.
-/
theorem expressions_keep_kinds_division :
    ∃ story,
      Story.read "VAR x = 1\n\x7bx + 2\x7d\n~ x = x / 0\n" =
          .ok story ∧
        ∃ knot ∈ story.outline.knots.values,
          (∃ e ∈ knot.expressions,
            e.IsInferred story.outline knot.name .int ∧
              e.eval (State.start story.outline 0).memory =
                .ok (.int 3)) ∧
          ∃ name value fault s',
            (name, value) ∈ knot.assignments ∧
              (assign story.outline name value).runFrom
                  (State.start story.outline 0) =
                (.error fault, s') ∧
              ∃ f, fault = .evaluation f ∧
                f.isNumeric = true := by
  have hCheck :
      (match Story.read
          "VAR x = 1\n\x7bx + 2\x7d\n~ x = x / 0\n" with
        | .error _ => false
        | .ok story =>
            let s := State.start story.outline 0
            story.outline.knots.values.any fun knot =>
              (knot.expressions.any fun e =>
                e.eval s.memory = .ok (.int 3)) &&
              knot.assignments.any fun p =>
                ((assign story.outline p.1 p.2).runFrom
                  s).1 matches .error _) = true := by
    decide +kernel
  cases hRead : Story.read
      "VAR x = 1\n\x7bx + 2\x7d\n~ x = x / 0\n" with
  | error e =>
      rw [hRead] at hCheck
      cases hCheck
  | ok story =>
      rw [hRead] at hCheck
      rcases List.any_eq_true.mp hCheck with
        ⟨knot, hKnot, hBoth⟩
      rw [Bool.and_eq_true] at hBoth
      rcases List.any_eq_true.mp hBoth.1 with
        ⟨e, hExpr, hValue⟩
      rcases List.any_eq_true.mp hBoth.2 with
        ⟨⟨name, value⟩, hAssign, hError⟩
      have hStart := Memory.keepsKinds_start story.outline 0
      rcases expressions_keep_kinds hRead with
        ⟨_, hSafe, hAssignments⟩
      rcases hSafe knot hKnot e hExpr with
        ⟨k, hInferred, hEval⟩
      have hValue' := of_decide_eq_true hValue
      have hKind : Kind.int = k :=
        (hEval _ hStart).1 _ hValue'
      refine ⟨story, rfl, knot, hKnot,
        ⟨e, hExpr, hKind ▸ hInferred, hValue'⟩, ?_⟩
      rcases hRun :
          (assign story.outline name value).runFrom
            (State.start story.outline 0) with
        ⟨fault | u, s'⟩
      · exact ⟨name, value, fault, s', hAssign, hRun,
          hAssignments knot hKnot name value hAssign _ hStart
            fault s' hRun⟩
      · simp only [hRun] at hError
        cases hError

end BranchingStory
