import BranchingStory.Proofs.Drafts
import BranchingStory.Proofs.Plain
import BranchingStory.Proofs.Resolution
import BranchingStory.Story.Check

/-
  This file says what a check without errors is worth: every
  expression has a kind, every divert leads somewhere, and
  every assignment keeps the kind of its variable.

  Key definitions include:
    * `Expr.HasKindIn`
    * `Leaf.IsCheckedIn`
    * `Outline.IsChecked`

  Key theorems include:
    * `Outline.hasAddress_of_findPlace?`
    * `Expr.checks_kind`
    * `Stitch.checks_everywhere`
    * `Outline.checks`
-/

------------------------------------------------------------
-- Places That Are Found
------------------------------------------------------------

namespace BranchingStory

/- A place that a target leads to is an address. -/
theorem Outline.hasAddress_of_findPlace?
    {o : Outline}
    {current target : String}
    {a : Address}
    (hPlace : o.findPlace? current target = some a) :
    o.hasAddress a = true := by
  have hDefault
      (hTarget :
        (do
          let k ← o.knots.lookup target
          let s ← k.defaultStitch?
          return (⟨target, s⟩ : Address)) = some a) :
      o.hasAddress a = true := by
    rcases Option.bind_eq_some_iff.mp hTarget with
      ⟨k, hKnot, hTarget⟩
    rcases Option.bind_eq_some_iff.mp hTarget with
      ⟨name, hFirst, hTarget⟩
    cases hTarget
    exact hasAddress_of_mem_keys hKnot
      (Knot.mem_keys_of_defaultStitch? hFirst)
  simp only [findPlace?] at hPlace
  split at hPlace
  · split at hPlace
    · next hKnown =>
        cases hPlace
        exact hKnown
    · cases hPlace
  · cases hKnot : o.knots.lookup current with
    | none =>
        simp only [hKnot, Bool.false_eq_true, if_false]
          at hPlace
        exact hDefault hPlace
    | some k =>
        simp only [hKnot] at hPlace
        split at hPlace
        · next hOwn =>
            cases hPlace
            exact hasAddress_of_mem_keys hKnot
              ((Table.contains_eq_true _ _).mp hOwn)
        · exact hDefault hPlace

end BranchingStory

------------------------------------------------------------
-- Expressions
------------------------------------------------------------

namespace BranchingStory

open Reading

namespace Expr

/-
  Whether an expression within a knot has a kind: every check
  finds it without a fault, and the resolved expression is of
  that kind.
-/
structure HasKindIn
    (o : Outline)
    (knot : String)
    (e : Expr)
    (k : Kind) : Prop where
  hasKind : HasKind o (e.resolve o knot) k
  run : ∀ line d,
    (e.checkKind o knot line).run d = .ok (some k, d)

namespace HasKindIn

variable {o : Outline}
variable {knot : String}
variable {e f : Expr}
variable {k l r : Kind}

/- The literal of a value has its kind. -/
theorem literal
    {v : Value}
    (hKind : v.kind ≠ .divert) :
    (Expr.literal v).HasKindIn o knot v.kind where
  hasKind := .literal v hKind
  run := by
    intro line d
    rfl

/- A divert to a place that exists is a divert. -/
theorem target
    {s : String}
    {line : Nat}
    {a : Address}
    (hPlace : o.findPlace? knot s = some a)
    (place : Option Address) :
    (Expr.target s line place).HasKindIn o knot .divert where
  hasKind := by
    rw [resolve, hPlace]
    exact .target s line a
      (Outline.hasAddress_of_findPlace? hPlace)
  run := by
    intro _ d
    rw [checkKind, hPlace]
    rfl

/- What can be tested may be negated. -/
theorem not
    (hKind : e.HasKindIn o knot k)
    (hTestable : k.isTestable = true) :
    (Expr.unary .not e).HasKindIn o knot .bool where
  hasKind := .not hKind.hasKind hTestable
  run := by
    intro line d
    rw [checkKind]
    refine run_bind_ok.mpr ⟨_, _, hKind.run line d, ?_⟩
    simp only [hTestable, if_true]
    rfl

/- The negative of a number is of the same kind. -/
theorem negate
    (hKind : e.HasKindIn o knot k)
    (hNumeric : k.isNumeric = true) :
    (Expr.unary .negate e).HasKindIn o knot k where
  hasKind := .negate hKind.hasKind hNumeric
  run := by
    intro line d
    rw [checkKind]
    refine run_bind_ok.mpr ⟨_, _, hKind.run line d, ?_⟩
    simp only [hNumeric, if_true]
    rfl

/- An operation has the kind of its result. -/
theorem binary
    {op : BinaryOp}
    (hLeft : e.HasKindIn o knot l)
    (hRight : f.HasKindIn o knot r)
    (hResult : op.resultKind? l r = some k) :
    (Expr.binary op e f).HasKindIn o knot k where
  hasKind := .binary hLeft.hasKind hRight.hasKind hResult
  run := by
    intro line d
    rw [checkKind]
    refine run_bind_ok.mpr ⟨_, _, hLeft.run line d, ?_⟩
    refine run_bind_ok.mpr ⟨_, _, hRight.run line d, ?_⟩
    simp only [hResult]
    rfl

end HasKindIn

variable (o : Outline)
variable (knot : String)

/- What a check without errors says of a name. -/
theorem checks_name
    (name : String)
    (line : Nat)
    (meaning : Option Meaning) :
    (checkName o knot name line).Checks fun r =>
      ∃ k, r = some k ∧
        (Expr.name name line meaning).HasKindIn o knot k := by
  unfold checkName
  split
  · next d hVariable =>
      refine Checks.pure ⟨_, rfl, ?_, ?_⟩
      · have hMeaning :
            o.meaning? knot name = some .variable := by
          simp [Outline.meaning?, Table.contains, hVariable]
        rw [resolve, hMeaning]
        exact .reference name line d hVariable
      · intro line d
        rw [checkKind, checkName, hVariable]
        rfl
  · next hVariable =>
      split
      · next a hPlace =>
          refine Checks.pure ⟨_, rfl, ?_, ?_⟩
          · have hMeaning :
                o.meaning? knot name = some (.visits a) := by
              simp [Outline.meaning?, Table.contains,
                hVariable, hPlace]
            rw [resolve, hMeaning]
            exact .visits name line a
              (Outline.hasAddress_of_findPlace? hPlace)
          · intro line d
            rw [checkKind, checkName, hVariable, hPlace]
            rfl
      · exact Checks.error_pure rfl line none

/-
  What a check without errors says of an expression: it has
  the kind that the check found.
-/
theorem checks_kind
    (line : Nat)
    (e : Expr) :
    (e.checkKind o knot line).Checks fun r =>
      e.IsPlain → ∃ k, r = some k ∧ e.HasKindIn o knot k := by
  induction e with
  | literal v =>
      exact Checks.pure fun hPlain =>
        ⟨_, rfl, .literal hPlain⟩
  | name s l meaning =>
      exact (checks_name o knot s l meaning).mono
        fun r hKind _ => hKind
  | target s l place =>
      rw [checkKind]
      split
      · next a hPlace =>
          exact Checks.pure fun _ =>
            ⟨_, rfl, .target hPlace place⟩
      · exact Checks.error_pure rfl l none
  | unary op e ih =>
      rw [checkKind]
      refine Checks.bind ih fun r => ?_
      split
      · refine Checks.pure fun hOperand hPlain => ?_
        rcases hOperand hPlain with ⟨k, hNone, _⟩
        cases hNone
      · next k =>
          refine Checks.ite (fun hTestable => ?_)
            fun _ => Checks.error_pure rfl line none
          refine Checks.pure fun hOperand hPlain => ?_
          rcases hOperand hPlain with ⟨k', hSome, hKind⟩
          cases hSome
          exact ⟨_, rfl, hKind.not hTestable⟩
      · next k =>
          refine Checks.ite (fun hNumeric => ?_)
            fun _ => Checks.error_pure rfl line none
          refine Checks.pure fun hOperand hPlain => ?_
          rcases hOperand hPlain with ⟨k', hSome, hKind⟩
          cases hSome
          exact ⟨_, rfl, hKind.negate hNumeric⟩
  | binary op e f ihLeft ihRight =>
      rw [checkKind]
      refine Checks.bind ihLeft fun l => ?_
      refine Checks.bind ihRight fun r => ?_
      split
      · next l r =>
          split
          · next k hResult =>
              refine Checks.pure fun hRight hLeft hPlain => ?_
              rcases hLeft hPlain.1 with ⟨l', hSome, hKind⟩
              cases hSome
              rcases hRight hPlain.2 with ⟨r', hSome, hKind'⟩
              cases hSome
              exact ⟨_, rfl, hKind.binary hKind' hResult⟩
          · exact Checks.error_pure rfl line none
      · next hNone =>
          refine Checks.pure fun hRight hLeft hPlain => ?_
          rcases hLeft hPlain.1 with ⟨l', hSome, _⟩
          rcases hRight hPlain.2 with ⟨r', hSome', _⟩
          exact absurd hSome' (hNone l' r' hSome)

end Expr

end BranchingStory

------------------------------------------------------------
-- Fragments And Choices
------------------------------------------------------------

namespace BranchingStory

open Reading

/- Whether an expression that is plain has a kind. -/
def Expr.IsKindedIn
    (o : Outline)
    (knot : String)
    (e : Expr) : Prop :=
  e.IsPlain → ∃ k, e.HasKindIn o knot k

/-
  What a check finds of a fragment by itself: its expression
  has a kind, and its divert leads somewhere.
-/
def Fragment.IsCheckedIn
    (o : Outline)
    (knot : String) : Fragment → Prop
  | .insertion e => e.IsKindedIn o knot
  | .conditional c _ _ => c.IsKindedIn o knot
  | .divert d =>
      (o.destination? knot d.target).isSome = true
  | _ => True

/-
  What a check finds of a part by itself: its fragments are
  checked, its conditions have kinds, and an assignment keeps
  the kind of its variable.
-/
structure Leaf.IsCheckedIn
    (o : Outline)
    (knot : String)
    (l : Leaf) : Prop where
  fragments : ∀ f ∈ l.fragments, f.IsCheckedIn o knot
  conditions : ∀ c, l = .choice c →
    ∀ e ∈ c.conditions, e.IsKindedIn o knot
  assigned : ∀ name value, l = .assign name value →
    ∃ d, o.vars.lookup name = some d ∧
      d.constant = false ∧
      (value.IsPlain →
        value.HasKindIn o knot d.initial.kind)

variable (o : Outline)
variable (knot : String)

/- What a check without errors says of a condition. -/
theorem Expr.checks_condition
    (line : Nat)
    (e : Expr) :
    (e.checkCondition o knot line).Checks fun _ =>
      e.IsKindedIn o knot := by
  unfold checkCondition
  refine Checks.bind (checks_kind o knot line e) fun r => ?_
  split
  · refine Checks.pure fun hKind hPlain => ?_
    rcases hKind hPlain with ⟨k, hNone, _⟩
    cases hNone
  · next k =>
      refine Checks.ite (fun _ => ?_)
        fun _ => Checks.error rfl line
      refine Checks.pure fun hKind hPlain => ?_
      rcases hKind hPlain with ⟨k', _, hHas⟩
      exact ⟨k', hHas⟩

/- What a check without errors says of a fragment. -/
theorem Fragment.checks
    (line : Nat)
    (f : Fragment) :
    (f.check o knot line).Checks fun _ =>
      f.IsCheckedIn o knot := by
  cases f with
  | text s => exact Checks.pure trivial
  | insertion e =>
      refine Checks.bind (Expr.checks_kind o knot line e)
        fun r => ?_
      refine Checks.pure fun hKind hPlain => ?_
      rcases hKind hPlain with ⟨k, _, hHas⟩
      exact ⟨k, hHas⟩
  | conditional c t f =>
      exact Expr.checks_condition o knot line c
  | alternative m items n => exact Checks.pure trivial
  | divert d =>
      rw [check]
      exact Checks.ite (fun hSome => Checks.pure hSome)
        fun _ => Checks.error rfl d.line

/- What a check without errors says of a line. -/
theorem ContentLine.checks
    (l : ContentLine) :
    (l.check o knot).Checks fun _ =>
      ∀ f ∈ Fragment.walkAll l.fragments,
        f.IsCheckedIn o knot :=
  Checks.forM (Fragment.checks o knot l.line) _

/- A line is checked as the leaf of a part. -/
theorem Leaf.isCheckedIn_line
    {o : Outline}
    {knot : String}
    {l : ContentLine}
    (hFragments :
      ∀ f ∈ Fragment.walkAll l.fragments,
        f.IsCheckedIn o knot) :
    (Leaf.line l).IsCheckedIn o knot where
  fragments := by
    simpa [Leaf.fragments, Leaf.lines] using hFragments
  conditions := by
    intro c hChoice
    cases hChoice
  assigned := by
    intro name value hAssign
    cases hAssign

/- A part that holds nothing itself is checked. -/
theorem Leaf.isCheckedIn_block :
    Leaf.block.IsCheckedIn o knot where
  fragments := by simp [Leaf.fragments, Leaf.lines]
  conditions := by
    intro c hChoice
    cases hChoice
  assigned := by
    intro name value hAssign
    cases hAssign

/- What a check without errors says of a choice. -/
theorem Choice.checks
    (c : Choice) :
    (c.check o knot).Checks fun _ =>
      (Leaf.choice c).IsCheckedIn o knot := by
  refine Checks.bind
    (Checks.forM (Expr.checks_condition o knot c.line) _)
    fun _ => ?_
  refine (ContentLine.checks o knot c.display).mono
    fun _ hFragments hConditions => ?_
  constructor
  · simpa [Leaf.fragments, Leaf.lines] using hFragments
  · intro c' hChoice
    cases hChoice
    exact hConditions
  · intro name value hAssign
    cases hAssign

/- What a check without errors says of an assignment. -/
theorem checks_assignment
    (name : String)
    (value : Expr)
    (line : Nat) :
    (checkAssignment o knot name value line).Checks fun _ =>
      (Leaf.assign name value).IsCheckedIn o knot := by
  unfold checkAssignment
  split
  · exact Checks.error rfl line
  · next d hVariable =>
      have hAssign
          (hVaries : d.constant = false)
          (hKind :
            value.IsPlain →
              value.HasKindIn o knot d.initial.kind) :
          (Leaf.assign name value).IsCheckedIn o knot := by
        constructor
        · simp [Leaf.fragments, Leaf.lines]
        · intro c hChoice
          cases hChoice
        · intro name' value' hSame
          cases hSame
          exact ⟨d, hVariable, hVaries, hKind⟩
      refine Checks.guarded (P := d.constant = false)
        (fun _ => Checks.error rfl line) (by simp) ?_
      refine Checks.bind (Expr.checks_kind o knot line value)
        fun r => ?_
      split
      · refine Checks.pure fun hKind hVaries => ?_
        refine hAssign hVaries fun hPlain => ?_
        rcases hKind hPlain with ⟨k, hNone, _⟩
        cases hNone
      · next k =>
          refine Checks.ite (fun hSame => ?_)
            fun _ => Checks.error rfl line
          refine Checks.pure fun hKind hVaries => ?_
          refine hAssign hVaries fun hPlain => ?_
          rcases hKind hPlain with ⟨k', hSome, hHas⟩
          cases hSome
          rw [← hSame]
          exact hHas

end BranchingStory

------------------------------------------------------------
-- Content
------------------------------------------------------------

namespace BranchingStory

open Reading

variable (o : Outline)
variable (knot : String)

/-
  The leaves that belong to a part without its branches: its
  own, and the choices that it offers.
-/
def Item.ownLeaves
    (i : Item) : List Leaf :=
  i.node.leaf :: i.branches.map fun b => .choice b.choice

/- Nothing is required of the fallbacks of a set. -/
theorem checks_fallbacks
    (choices : List Choice) :
    (checkFallbackCount choices).Checks fun _ => True := by
  unfold checkFallbackCount
  split
  · exact Checks.report _ _
  · exact Checks.pure trivial

/- Nothing is required of a fallback. -/
theorem checks_fallback
    (c : Choice) :
    (checkFallback c).Checks fun _ => True := by
  unfold checkFallback
  exact Checks.ite (fun _ => Checks.pure trivial)
    fun _ => Checks.report _ _

/- What a check without errors says of a part itself. -/
theorem Item.checks
    (i : Item) :
    (i.check o knot).Checks fun _ =>
      ∀ l ∈ i.ownLeaves, l.IsCheckedIn o knot := by
  cases i with
  | line id content =>
      refine (ContentLine.checks o knot content).mono
        fun _ hFragments => ?_
      simpa [ownLeaves, node, Node.leaf, branches]
        using Leaf.isCheckedIn_line hFragments
  | gather id depth content =>
      cases content with
      | none =>
          apply Checks.pure
          simpa [ownLeaves, node, Node.leaf, branches]
            using Leaf.isCheckedIn_block o knot
      | some content =>
          refine (ContentLine.checks o knot content).mono
            fun _ hFragments => ?_
          simpa [ownLeaves, node, Node.leaf, branches]
            using Leaf.isCheckedIn_line hFragments
  | assign id name value line =>
      refine (checks_assignment o knot name value line).mono
        fun _ hAssign => ?_
      simpa [ownLeaves, node, Node.leaf, branches]
        using hAssign
  | choices id depth line bs =>
      refine Checks.bind (checks_fallbacks _) fun _ => ?_
      refine Checks.bind (Checks.forM checks_fallback _)
        fun _ => ?_
      refine (Checks.forM (Choice.checks o knot) _).mono
        fun _ hChoices _ _ => ?_
      intro l hLeaf
      rcases List.mem_cons.mp hLeaf with rfl | hLeaf
      · exact Leaf.isCheckedIn_block o knot
      · rcases List.mem_map.mp hLeaf with ⟨b, hBranch, rfl⟩
        exact hChoices b.choice
          (List.mem_map_of_mem hBranch)

/- Each leaf of a content belongs to one of its parts. -/
theorem exists_ownLeaves
    {items : List Item}
    {p : Nat × Leaf}
    (hLeaf : p ∈ itemLeaves items) :
    ∃ i ∈ innerItems items, p.2 ∈ i.ownLeaves := by
  rcases List.mem_map.mp hLeaf with ⟨n, hNode, rfl⟩
  rcases (mem_itemNodes_iff items n).mp hNode with
    hPart | hBranch
  · rcases List.mem_map.mp hPart with ⟨i, hItem, rfl⟩
    exact ⟨i, hItem, List.mem_cons_self⟩
  · rcases List.mem_map.mp hBranch with ⟨b, hMem, rfl⟩
    rcases List.mem_flatMap.mp hMem with ⟨i, hItem, hOwn⟩
    exact ⟨i, hItem, List.mem_cons_of_mem _
      (List.mem_map_of_mem hOwn)⟩

end BranchingStory

------------------------------------------------------------
-- Checks Of Every Part
------------------------------------------------------------

namespace BranchingStory

open Reading

section Everywhere

variable {o : Outline}
variable {knot : String}
variable {P : Item → Prop}

mutual

/-
  What a check without errors says of each part, it says of all
  parts within one that is checked itself.
-/
theorem Item.checks_everywhere
    (hCheck :
      ∀ i : Item, (i.check o knot).Checks fun _ => P i)
    (i : Item) :
    (i.checkBranches o knot).Checks fun _ =>
      P i → ∀ j ∈ i.inner, P j := by
  have hAlone (hInner : i.inner = [i]) :
      P i → ∀ j ∈ i.inner, P j := by
    intro hOwn j hMem
    rw [hInner, List.mem_singleton] at hMem
    rw [hMem]
    exact hOwn
  cases i with
  | choices id depth line branches =>
      rw [Item.checkBranches]
      refine (checks_branches_everywhere hCheck branches).mono
        fun _ hBranches hOwn => ?_
      rw [Item.inner]
      exact List.forall_mem_cons.mpr ⟨hOwn, hBranches⟩
  | line id content =>
      rw [Item.checkBranches]
      · exact Checks.pure (hAlone (by simp [Item.inner]))
      · simp
  | gather id depth content =>
      rw [Item.checkBranches]
      · exact Checks.pure (hAlone (by simp [Item.inner]))
      · simp
  | assign id name value line =>
      rw [Item.checkBranches]
      · exact Checks.pure (hAlone (by simp [Item.inner]))
      · simp

/- The same for a branch, its output included. -/
theorem Branch.checks_everywhere
    (hCheck :
      ∀ i : Item, (i.check o knot).Checks fun _ => P i)
    (b : Branch) :
    (b.check o knot).Checks fun _ => ∀ j ∈ b.inner, P j := by
  rcases b with ⟨id, outputId, depth, choice, items⟩
  rw [Branch.check, Branch.inner]
  refine Checks.bind (hCheck (.line outputId choice.output))
    fun _ => ?_
  refine Checks.bind (Checks.forM hCheck items) fun _ => ?_
  refine (checks_items_everywhere hCheck items).mono
    fun _ hInner hItems hOutput => ?_
  exact List.forall_mem_cons.mpr ⟨hOutput, hInner hItems⟩

/- The same for branches. -/
theorem checks_branches_everywhere
    (hCheck :
      ∀ i : Item, (i.check o knot).Checks fun _ => P i)
    (bs : List Branch) :
    (checkBranchList o knot bs).Checks fun _ =>
      ∀ j ∈ innerOfBranches bs, P j := by
  cases bs with
  | nil =>
      rw [checkBranchList, innerOfBranches]
      exact Checks.pure (List.forall_mem_nil _)
  | cons b bs =>
      rw [checkBranchList, innerOfBranches]
      refine Checks.bind (checks_branches_everywhere hCheck bs)
        fun _ => ?_
      refine (Branch.checks_everywhere hCheck b).mono
        fun _ hHead hTail => ?_
      exact List.forall_mem_append.mpr ⟨hHead, hTail⟩

/- The same for a content whose parts are checked. -/
theorem checks_items_everywhere
    (hCheck :
      ∀ i : Item, (i.check o knot).Checks fun _ => P i)
    (items : List Item) :
    (checkInnerBranches o knot items).Checks fun _ =>
      (∀ i ∈ items, P i) → ∀ j ∈ innerItems items, P j := by
  cases items with
  | nil =>
      rw [checkInnerBranches, innerItems]
      exact Checks.pure fun _ => List.forall_mem_nil _
  | cons i is =>
      rw [checkInnerBranches, innerItems]
      refine Checks.bind (checks_items_everywhere hCheck is)
        fun _ => ?_
      refine (Item.checks_everywhere hCheck i).mono
        fun _ hHead hTail hOwn => ?_
      rcases List.forall_mem_cons.mp hOwn with ⟨hFirst, hRest⟩
      exact List.forall_mem_append.mpr
        ⟨hHead hFirst, hTail hRest⟩

end

/- The same for a stitch. -/
theorem Stitch.checks_everywhere
    (hCheck :
      ∀ i : Item, (i.check o knot).Checks fun _ => P i)
    (s : Stitch) :
    (s.check o knot).Checks fun _ =>
      ∀ j ∈ innerItems s.body.items, P j :=
  Checks.bind (Checks.forM hCheck _) fun _ =>
    checks_items_everywhere hCheck s.body.items

end Everywhere

variable (o : Outline)
variable (knot : String)

/- What a check without errors says of a stitch. -/
theorem Stitch.checks
    (s : Stitch) :
    (s.check o knot).Checks fun _ =>
      ∀ p ∈ s.body.leaves, p.2.IsCheckedIn o knot := by
  refine (s.checks_everywhere (Item.checks o knot)).mono
    fun _ hParts p hLeaf => ?_
  rw [Body.leaves_eq] at hLeaf
  rcases List.mem_cons.mp hLeaf with rfl | hLeaf
  · exact Leaf.isCheckedIn_block o knot
  · rcases exists_ownLeaves hLeaf with ⟨i, hItem, hOwn⟩
    exact hParts i hItem _ hOwn

end BranchingStory

------------------------------------------------------------
-- Outlines
------------------------------------------------------------

namespace BranchingStory

open Reading

/-
  What a check finds of an outline: the variables that hold
  places lead to places, and all that the knots hold is
  checked.
-/
structure Outline.IsChecked
    (o : Outline) : Prop where
  places : ∀ d ∈ o.vars.values, ∀ target,
    d.initial = .divert target →
      (o.findPlace? "" target).isSome = true
  leaves : ∀ k ∈ o.knots.values, ∀ p ∈ k.leaves,
    p.2.IsCheckedIn o k.name

variable (o : Outline)

/- What a check without errors says of a declaration. -/
theorem Declaration.checks
    (d : Declaration) :
    (d.check o).Checks fun _ =>
      ∀ target, d.initial = .divert target →
        (o.findPlace? "" target).isSome = true := by
  unfold Declaration.check
  refine Checks.guarded (fun _ => Checks.report _ _)
    (fun _ => trivial) ?_
  split
  · next target hDivert =>
      refine Checks.ite (fun hSome => ?_)
        fun _ => Checks.error rfl d.line
      refine Checks.pure fun _ target' hDivert' => ?_
      rw [hDivert] at hDivert'
      cases hDivert'
      exact hSome
  · next hOther =>
      refine Checks.pure fun _ target hDivert => ?_
      exact absurd hDivert (hOther target)

/- What a check without errors says of an outline. -/
theorem Outline.checks :
    o.check.Checks fun _ => o.IsChecked := by
  have hKnot (k : Knot) :
      (k.check o).Checks fun _ =>
        ∀ p ∈ k.leaves, p.2.IsCheckedIn o k.name := by
    refine (Checks.forM (Stitch.checks o k.name) _).mono
      fun _ hStitches p hLeaf => ?_
    rcases List.mem_flatMap.mp hLeaf with ⟨s, hStitch, hLeaf⟩
    exact hStitches s hStitch p hLeaf
  refine Checks.bind
    (Checks.forM (Declaration.checks o) _) fun _ => ?_
  refine (Checks.forM hKnot _).mono fun _ hKnots hVars => ?_
  exact ⟨hVars, hKnots⟩

end BranchingStory
