import BranchingStory.Proofs.Building
import BranchingStory.Proofs.Checked
import BranchingStory.Story.Read

/-
  This file says what is true of every story that can be read:
  its numbers and names are unambiguous, its expressions have
  kinds, and its diverts and variables lead to places.

  Key definitions include:
    * `Leaf.IsSound`
    * `Outline.IsSound`

  Key theorems include:
    * `Story.read_ok`
    * `Outline.IsBuilt.isSound_resolve`
    * `Story.isSound_of_read`
-/

------------------------------------------------------------
-- Sound Outlines
------------------------------------------------------------

namespace BranchingStory

open scoped List

/- Whether a destination exists. -/
def Destination.IsSound
    (o : Outline) : Destination → Prop
  | .finish => True
  | .throughVariable name =>
      ∃ d, o.vars.lookup name = some d ∧
        d.initial.kind = .divert
  | .place a => o.hasAddress a = true

/-
  Whether a fragment can be rendered: its expression has a
  kind, an alternative has items, and a divert a destination.
-/
def Fragment.IsSound
    (o : Outline) : Fragment → Prop
  | .text _ => True
  | .insertion e => ∃ k, HasKind o e k
  | .conditional c _ _ => ∃ k, HasKind o c k
  | .alternative _ items _ => items ≠ []
  | .divert d =>
      ∃ destination, d.destination = some destination ∧
        destination.IsSound o

/-
  Whether what a part holds can be played: its fragments can
  be rendered, its conditions have kinds, and its assignment
  keeps the kind of a declared variable.
-/
structure Leaf.IsSound
    (o : Outline)
    (l : Leaf) : Prop where
  fragments : ∀ f ∈ l.fragments, f.IsSound o
  conditions : ∀ c, l = .choice c →
    ∀ e ∈ c.conditions, ∃ k, HasKind o e k
  assigned : ∀ name value, l = .assign name value →
    ∃ d, o.vars.lookup name = some d ∧
      HasKind o value d.initial.kind

/-
  Whether an outline can be played: numbers are unambiguous,
  what its parts hold can be played, names can stand in paths,
  every knot begins somewhere, and the start and the variables
  that hold places lead to places.
-/
structure Outline.IsSound
    (o : Outline) : Prop where
  ids : o.ids ~ List.range o.size
  alternatives : ((alternativesOf o.leaves).map Prod.fst).Nodup
  leaves : ∀ p ∈ o.leaves, p.2.IsSound o
  attached : o.detached = []
  names : ∀ a, o.hasAddress a = true →
    IsPlaceName a.knot ∧ IsPlaceName a.stitch
  begins : ∀ name k, o.knots.lookup name = some k →
    ∃ s, k.defaultStitch? = some s
  start : o.hasAddress o.start = true
  vars : VarsAreSound o.vars
  held : ∀ d ∈ o.vars.values, ∀ s,
    d.initial = .divert s →
      ∃ a, o.hasAddress a = true ∧ s = a.path

namespace Outline.IsSound

variable {o : Outline}

/- No number stands twice in a sound outline. -/
theorem nodup
    (hSound : o.IsSound) :
    o.ids.Nodup :=
  hSound.ids.nodup_iff.mpr List.nodup_range

/- All numbers of a sound outline are below its size. -/
theorem lt_size
    (hSound : o.IsSound)
    {n : Nat}
    (hMem : n ∈ o.ids) :
    n < o.size :=
  List.mem_range.mp (hSound.ids.subset hMem)

end Outline.IsSound

end BranchingStory

------------------------------------------------------------
-- From Checks To Soundness
------------------------------------------------------------

namespace BranchingStory

variable {o : Outline}
variable {knot : String}

/- A destination that is found exists. -/
theorem Outline.isSound_of_destination?
    {target : String}
    {destination : Destination}
    (hFound :
      o.destination? knot target = some destination) :
    destination.IsSound o.resolve := by
  rw [destination?] at hFound
  split at hFound
  · cases hFound
    trivial
  · split at hFound
    · next hHolds =>
        cases hFound
        rw [holdsPlace] at hHolds
        split at hHolds
        · next d hLookup =>
            refine ⟨d.resolve o, ?_, ?_⟩
            · rw [vars_lookup_resolve, hLookup]
              rfl
            · rw [Declaration.kind_resolve]
              simpa using hHolds
        · cases hHolds
    · rcases Option.map_eq_some_iff.mp hFound with
        ⟨a, hPlace, hSome⟩
      cases hSome
      change o.resolve.hasAddress a = true
      rw [hasAddress_resolve]
      exact hasAddress_of_findPlace? hPlace

/- A plain expression with a kind keeps it when resolved. -/
theorem Expr.IsKindedIn.resolve
    {e : Expr}
    (hKinded : e.IsKindedIn o knot)
    (hPlain : e.IsPlain) :
    ∃ k, HasKind o.resolve (e.resolve o knot) k := by
  rcases hKinded hPlain with ⟨k, hKind⟩
  exact ⟨k, hKind.hasKind.resolve⟩

/- A fragment that is checked can be rendered. -/
theorem Fragment.isSound_resolve
    {f : Fragment}
    (hChecked : f.IsCheckedIn o knot)
    (hPlain : ∀ e, f.expression? = some e → e.IsPlain)
    (hFilled : ∀ x, f.alternative? = some x → 0 < x.2) :
    (f.resolve o knot).IsSound o.resolve := by
  cases f with
  | text s =>
      rw [resolve]
      trivial
  | insertion e =>
      rw [resolve]
      exact Expr.IsKindedIn.resolve hChecked (hPlain e rfl)
  | conditional c t f =>
      rw [resolve]
      exact Expr.IsKindedIn.resolve hChecked (hPlain c rfl)
  | alternative m items n =>
      rw [resolve]
      change resolveItems o knot items ≠ []
      apply List.ne_nil_of_length_pos
      rw [length_resolveItems]
      exact hFilled (n, items.length) rfl
  | divert d =>
      rw [resolve]
      rcases Option.isSome_iff_exists.mp hChecked with
        ⟨destination, hFound⟩
      exact ⟨destination, hFound,
        Outline.isSound_of_destination? hFound⟩

/- What a part that is checked holds can be played. -/
theorem Leaf.isSound_resolve
    {l : Leaf}
    (hChecked : l.IsCheckedIn o knot)
    (hPlain : ∀ e ∈ l.expressions, e.IsPlain)
    (hFilled : ∀ x ∈ l.alternatives, 0 < x.2) :
    (l.resolve o knot).IsSound o.resolve := by
  have hOwn (e : Expr) (hMem : e ∈ l.ownExpressions) :
      e.IsPlain :=
    hPlain e (List.mem_append_left _ hMem)
  constructor
  · intro f hMem
    rw [fragments_resolve, List.mem_map] at hMem
    rcases hMem with ⟨f, hMem, rfl⟩
    apply Fragment.isSound_resolve (hChecked.fragments f hMem)
    · intro e hExpr
      exact hPlain e (List.mem_append_right _
        (List.mem_filterMap.mpr ⟨f, hMem, hExpr⟩))
    · intro x hAlternative
      exact hFilled x
        (List.mem_filterMap.mpr ⟨f, hMem, hAlternative⟩)
  · intro c hChoice e hMem
    cases l with
    | choice c' =>
        cases hChoice
        change e ∈ c'.conditions.map (Expr.resolve o knot)
          at hMem
        rcases List.mem_map.mp hMem with ⟨e, hCondition, rfl⟩
        exact Expr.IsKindedIn.resolve
          (hChecked.conditions c' rfl e hCondition)
          (hOwn e hCondition)
    | block => cases hChoice
    | line content => cases hChoice
    | assign name value => cases hChoice
  · intro name value hAssign
    cases l with
    | assign name' value' =>
        cases hAssign
        rcases hChecked.assigned name value' rfl with
          ⟨d, hLookup, _, hKind⟩
        refine ⟨d.resolve o, ?_, ?_⟩
        · rw [Outline.vars_lookup_resolve, hLookup]
          rfl
        · rw [Declaration.kind_resolve]
          exact (hKind (hOwn value' (by
            simp [ownExpressions]))).hasKind.resolve
    | block => cases hAssign
    | line content => cases hAssign
    | choice c => cases hAssign

namespace Outline

/- Leaves of a resolved outline come from its knots. -/
theorem mem_leaves_resolve
    (hAttached : o.detached = [])
    {p : Nat × Leaf}
    (hMem : p ∈ o.resolve.leaves) :
    ∃ k ∈ o.knots.values, ∃ q ∈ k.leaves,
      p = resolveLeaf o k.name q := by
  rw [leaves_resolve, hAttached, List.flatMap_nil,
    List.append_nil, List.mem_flatMap] at hMem
  rcases hMem with ⟨k, hKnot, hMem⟩
  rcases List.mem_map.mp hMem with ⟨q, hLeaf, rfl⟩
  exact ⟨k, hKnot, q, hLeaf, rfl⟩

/- The leaves of a knot are among those of its outline. -/
theorem mem_leaves_of_knot
    {k : Knot}
    (hKnot : k ∈ o.knots.values)
    {p : Nat × Leaf}
    (hMem : p ∈ k.leaves) :
    p ∈ o.leaves := by
  rw [leaves_eq]
  exact List.mem_append_left _
    (List.mem_flatMap.mpr ⟨k, hKnot, hMem⟩)

/- Resolving keeps the alternatives of an outline. -/
theorem alternativesOf_leaves_resolve
    (o : Outline) :
    alternativesOf o.resolve.leaves =
      alternativesOf o.leaves := by
  rw [leaves_resolve, leaves_eq]
  simp only [alternativesOf, List.flatMap_append,
    List.flatMap_assoc, List.flatMap_map, resolveLeaf,
    Leaf.alternatives_resolve]

/- Resolving keeps the names of declarations. -/
theorem varsAreSound_resolve
    (hVars : VarsAreSound o.vars) :
    VarsAreSound o.resolve.vars := by
  constructor
  · rw [resolve, Table.keys_mapValues]
    exact hVars.nodup
  · intro e hMem
    rcases List.mem_map.mp hMem with ⟨e, hEntry, rfl⟩
    have hName := hVars.names e hEntry
    rw [← hName]
    unfold Declaration.resolve
    split
    · split
      · rfl
      · rfl
    · rfl

/- The diverts that variables begin with lead to places. -/
theorem IsChecked.held_resolve
    (hChecked : o.IsChecked)
    {d : Declaration}
    (hMem : d ∈ o.resolve.vars.values)
    {s : String}
    (hDivert : d.initial = .divert s) :
    ∃ a, o.resolve.hasAddress a = true ∧ s = a.path := by
  rw [resolve, Table.values_mapValues] at hMem
  rcases List.mem_map.mp hMem with ⟨d, hDeclared, rfl⟩
  unfold Declaration.resolve at hDivert
  split at hDivert
  · next target hInitial =>
      rcases
          Option.isSome_iff_exists.mp
            (hChecked.places d hDeclared target hInitial) with
        ⟨a, hPlace⟩
      rw [hPlace] at hDivert
      cases hDivert
      refine ⟨a, ?_, rfl⟩
      rw [hasAddress_resolve]
      exact hasAddress_of_findPlace? hPlace
  · next hOther => exact absurd hDivert (hOther s)

variable {numbered : Nat}

/-
  An outline that is built and checked can be played once its
  names are resolved.
-/
theorem IsBuilt.isSound_resolve
    (hBuilt : o.IsBuilt numbered)
    (hChecked : o.IsChecked) :
    o.resolve.IsSound where
  ids := by
    have hIds := hBuilt.leaves.ids
    rw [leaves_fst] at hIds
    rw [ids_resolve]
    exact hIds
  alternatives := by
    rw [alternativesOf_leaves_resolve]
    exact hBuilt.leaves.nodup
  leaves := by
    intro p hMem
    rcases mem_leaves_resolve hBuilt.attached hMem with
      ⟨k, hKnot, q, hLeaf, rfl⟩
    have hLeaf' := mem_leaves_of_knot hKnot hLeaf
    apply Leaf.isSound_resolve
      (hChecked.leaves k hKnot q hLeaf)
    · exact hBuilt.leaves.plain q hLeaf'
    · intro x hAlternative
      exact hBuilt.leaves.filled x
        (List.mem_flatMap.mpr ⟨q, hLeaf', hAlternative⟩)
  attached := hBuilt.attached
  names := by
    intro a hAddress
    rw [hasAddress_resolve, hasAddress_iff] at hAddress
    rcases hAddress with ⟨k, hKnot, hStitch⟩
    have hSound := hBuilt.knots.knots k
      (Table.mem_values_of_lookup hKnot)
    have hName := hBuilt.knots.names _
      (Table.mem_entries_of_lookup hKnot)
    refine ⟨?_, hSound.stitches.names _ hStitch⟩
    rw [← show k.name = a.knot from hName]
    exact hSound.name
  begins := by
    intro name k hKnot
    rw [knots_lookup_resolve] at hKnot
    rcases Option.map_eq_some_iff.mp hKnot with
      ⟨k, hLookup, rfl⟩
    rw [defaultStitch?_resolve, Knot.defaultStitch?]
    split
    · exact ⟨_, rfl⟩
    · have hSound := hBuilt.knots.knots k
        (Table.mem_values_of_lookup hLookup)
      cases hEntries : k.stitches.entries with
      | nil => exact absurd hEntries hSound.notEmpty
      | cons e rest =>
          exact ⟨e.1, by rw [Table.keys, hEntries]; rfl⟩
  start := by
    rw [hasAddress_resolve]
    exact hBuilt.start
  vars := varsAreSound_resolve hBuilt.vars
  held := fun _ hMem _ hDivert =>
    hChecked.held_resolve hMem hDivert

end Outline

end BranchingStory

------------------------------------------------------------
-- Stories That Can Be Read
------------------------------------------------------------

namespace BranchingStory

open Reading

/-
  Whether an outline was built and checked without errors, and
  is no larger than the length of the script allows.
-/
structure Outline.ComesFrom
    (source : String)
    (o : Outline)
    (numbered : Nat) : Prop where
  isBuilt : o.IsBuilt numbered
  isChecked : o.IsChecked
  size : o.size ≤ 4 * source.length
  numbered : numbered ≤ 3 * source.length

/- What reading a script without errors yields. -/
theorem readOutline_ensures
    (source : String) :
    (readOutline source).Ensures fun d o? d' =>
      d'.IsClean → d.numbered = 0 →
        ∃ o numbered, o? = some o ∧
          o.ComesFrom source numbered := by
  intro d o? d' hRun hClean hZero
  rcases run_bind_ok.mp hRun with ⟨ls, d₁, hLines, hRun⟩
  rcases run_bind_ok.mp hRun with ⟨r, d₂, hBuild, hRun⟩
  rcases classifyScript_idles source d ls d₁ hLines with
    ⟨_, hSame, hProper, hLength, hCount⟩
  rcases buildOutline_ensures ls hProper d₁ r d₂ hBuild with
    ⟨_, hNumbered, hBuilt⟩
  cases r with
  | none =>
      rcases run_pure_ok.mp hRun with ⟨rfl, rfl⟩
      rcases hBuilt hClean (hSame.trans hZero) with
        ⟨o, hSome, _⟩
      cases hSome
  | some o =>
      rcases run_bind_ok.mp hRun with ⟨_, d₃, hCheck, hRun⟩
      rcases run_pure_ok.mp hRun with ⟨rfl, rfl⟩
      rcases o.checks d₂ _ d₃ hCheck with ⟨hAdds, hChecked⟩
      rcases
          hBuilt (hAdds.isClean hClean) (hSame.trans hZero) with
        ⟨o', hSome, hIsBuilt, hSize⟩
      cases hSome
      refine ⟨o, d₂.numbered, rfl, hIsBuilt,
        hChecked hClean, ?_, ?_⟩
      · omega
      · omega

/-
  A story is read if an outline is, without an error, and then
  it is the resolved form of that outline.
-/
theorem Story.read_eq_ok_iff
    {source : String}
    {story : Story} :
    Story.read source = .ok story ↔
      ∃ o d, (readOutline source).run ⟨[], 0⟩ =
          .ok (some o, d) ∧
        d.issues.any Issue.isError = false ∧
        story = ⟨o.resolve, .ofIssues d.issues⟩ := by
  unfold Story.read Reading.start
  cases (readOutline source).run ⟨[], 0⟩ with
  | error n => simp [Except.map]
  | ok p =>
      rcases p with ⟨_ | o, d⟩
      · simp [Except.map]
      · simp only [Except.map, Except.ok.injEq,
          Prod.mk.injEq, Option.some.injEq]
        constructor
        · intro hRead
          split at hRead
          · nomatch hRead
          · next hErrors =>
              cases hRead
              rw [Bool.not_eq_true] at hErrors
              exact ⟨o, d, ⟨rfl, rfl⟩, hErrors, rfl⟩
        · rintro ⟨_, _, ⟨rfl, rfl⟩, hNone, rfl⟩
          rw [hNone]
          rfl

/-
  Every story that can be read is the resolved form of such an
  outline.
-/
theorem Story.read_ok
    {source : String}
    {story : Story}
    (hRead : Story.read source = .ok story) :
    ∃ (o : Outline) (numbered : Nat),
      story.outline = o.resolve ∧
        o.ComesFrom source numbered := by
  rcases Story.read_eq_ok_iff.mp hRead with
    ⟨o, d, hRun, hNone, rfl⟩
  rcases readOutline_ensures source _ _ d hRun
      (Draft.any_isError_eq_false.mp hNone) rfl with
    ⟨o', numbered, hSome, hFrom⟩
  cases hSome
  exact ⟨o, numbered, rfl, hFrom⟩

/- Every story that can be read can be played. -/
theorem Story.isSound_of_read
    {source : String}
    {story : Story}
    (hRead : Story.read source = .ok story) :
    story.outline.IsSound := by
  rcases Story.read_ok hRead with
    ⟨o, numbered, hOutline, hFrom⟩
  rw [hOutline]
  exact hFrom.isBuilt.isSound_resolve hFrom.isChecked

/-
  The parts and the alternatives of a story are no more than
  its script is long, up to a factor.
-/
theorem Story.size_le_of_read
    {source : String}
    {story : Story}
    (hRead : Story.read source = .ok story) :
    story.outline.size ≤ 4 * source.length ∧
      ∀ x ∈ alternativesOf story.outline.leaves,
        x.1 < 3 * source.length := by
  rcases Story.read_ok hRead with
    ⟨o, numbered, hOutline, hFrom⟩
  rw [hOutline, Outline.alternativesOf_leaves_resolve]
  refine ⟨hFrom.size, ?_⟩
  intro x hMem
  exact Nat.lt_of_lt_of_le
    (hFrom.isBuilt.leaves.most x hMem) hFrom.numbered

end BranchingStory
