import BranchingStory.Proofs.ScriptLines
import BranchingStory.Proofs.Spines
import BranchingStory.Proofs.Tables

/-
  This file shows what is true of an outline while it is being
  built, as long as no error is reported: no number is handed
  out twice, no name stands twice, and all names can stand in
  paths.

  Key definitions include:
    * `LeavesAreSound`
    * `OpenKnot.IsSound`
    * `Builder.IsSound`
    * `Builder.WritesLine`

  Key theorems include:
    * `LeavesAreSound.add`
    * `Builder.isSound_of_knot`
    * `Builder.add_writes`
    * `Builder.add_keeps`
    * `buildOutline_ensures`
-/

------------------------------------------------------------
-- Sound Leaves
------------------------------------------------------------

namespace BranchingStory

open scoped List

/- All alternatives of leaves. -/
def alternativesOf
    (ls : List (Nat × Leaf)) : List (Nat × Nat) :=
  ls.flatMap fun p => p.2.alternatives

/-
  Whether leaves have all numbers below a size, each once,
  alternatives have numbers of their own below a bound and are
  not empty, and all expressions are plain.
-/
structure LeavesAreSound
    (ls : List (Nat × Leaf))
    (size numbered : Nat) : Prop where
  ids : ls.map Prod.fst ~ List.range size
  nodup : ((alternativesOf ls).map Prod.fst).Nodup
  most : ∀ x ∈ alternativesOf ls, x.1 < numbered
  filled : ∀ x ∈ alternativesOf ls, 0 < x.2
  plain : ∀ p ∈ ls, ∀ e ∈ p.2.expressions, e.IsPlain

namespace LeavesAreSound

variable {ls ls' ns : List (Nat × Leaf)}
variable {size : Nat}

/- No leaves are sound. -/
theorem nil :
    LeavesAreSound [] 0 0 where
  ids := List.Perm.refl _
  nodup := List.nodup_nil
  most := by simp [alternativesOf]
  filled := by simp [alternativesOf]
  plain := by simp

/- Leaves are sound in any order. -/
theorem perm
    {numbered : Nat}
    (hSound : LeavesAreSound ls size numbered)
    (hPerm : ls' ~ ls) :
    LeavesAreSound ls' size numbered := by
  have hAlternatives :
      alternativesOf ls' ~ alternativesOf ls :=
    hPerm.flatMap_right _
  constructor
  · exact (hPerm.map _).trans hSound.ids
  · exact ((hAlternatives.map _).nodup_iff).mpr hSound.nodup
  · intro x hMem
    exact hSound.most x (hAlternatives.subset hMem)
  · intro x hMem
    exact hSound.filled x (hAlternatives.subset hMem)
  · intro p hMem
    exact hSound.plain p (hPerm.subset hMem)

/- New leaves with the next numbers may be added. -/
theorem add
    {d d' : Draft}
    {m n : Nat}
    (hSound : LeavesAreSound ls size d.numbered)
    (hIds : ns.map Prod.fst ~ List.range' size m)
    (hNumbers : d.Numbers d' (alternativesOf ns) n)
    (hPlain :
      ∀ p ∈ ns, ∀ e ∈ p.2.expressions, e.IsPlain) :
    LeavesAreSound (ls ++ ns) (size + m) d'.numbered := by
  have hAlternatives :
      alternativesOf (ls ++ ns) =
        alternativesOf ls ++ alternativesOf ns := by
    simp [alternativesOf]
  constructor
  · have hRange :
        List.range (size + m) =
          List.range size ++ List.range' size m := by
      rw [List.range_eq_range', List.range_eq_range',
        ← List.range'_append_1, Nat.zero_add]
    rw [List.map_append, hRange]
    exact hSound.ids.append hIds
  · rw [hAlternatives, List.map_append, List.nodup_append]
    refine ⟨hSound.nodup, hNumbers.nodup, ?_⟩
    intro i hMem j hMem' hSame
    rcases List.mem_map.mp hMem with ⟨x, hx, rfl⟩
    rcases List.mem_map.mp hMem' with ⟨y, hy, rfl⟩
    have hMost := hSound.most x hx
    have hLeast := hNumbers.least y hy
    omega
  · rw [hAlternatives]
    intro x hMem
    rcases List.mem_append.mp hMem with hMem | hMem
    · exact Nat.lt_of_lt_of_le (hSound.most x hMem)
        hNumbers.precedes.numbered
    · exact hNumbers.most x hMem
  · rw [hAlternatives]
    intro x hMem
    rcases List.mem_append.mp hMem with hMem | hMem
    · exact hSound.filled x hMem
    · exact hNumbers.filled x hMem
  · intro p hMem
    rcases List.mem_append.mp hMem with hMem | hMem
    · exact hSound.plain p hMem
    · exact hPlain p hMem

/- A new part that holds nothing itself may be added. -/
theorem add_block
    {numbered : Nat}
    (hSound : LeavesAreSound ls size numbered) :
    LeavesAreSound (ls ++ [(size, .block)]) (size + 1)
      numbered := by
  have hNone :
      (Draft.mk [] numbered).Numbers ⟨[], numbered⟩
        (alternativesOf [(size, .block)]) 0 :=
    Draft.Numbers.none (Draft.Precedes.refl _) rfl
  apply add (m := 1) hSound (by simp) hNone
  intro p hMem e hExpr
  rw [List.mem_singleton] at hMem
  subst hMem
  cases hExpr

end LeavesAreSound

/- The leaf of a line has the alternatives of the line. -/
theorem Leaf.alternatives_line
    (l : ContentLine) :
    (Leaf.line l).alternatives =
      alternativesIn l.fragments := by
  simp [alternatives, fragments, lines, alternativesIn]

/- The leaf of a line is plain if the line is. -/
theorem Leaf.plain_line
    {l : ContentLine}
    (hPlain : PlainIn l.fragments) :
    ∀ e ∈ (Leaf.line l).expressions, e.IsPlain := by
  intro e hMem
  apply hPlain e
  simpa [expressions, ownExpressions, fragments, lines]
    using hMem

/- The leaf of a choice has those of its display line. -/
theorem Leaf.alternatives_choice
    (c : Choice) :
    (Leaf.choice c).alternatives =
      alternativesIn c.display.fragments := by
  simp [alternatives, fragments, lines, alternativesIn]

/- The leaf of a choice is plain if all its parts are. -/
theorem Leaf.plain_choice
    {c : Choice}
    (hConditions : ∀ e ∈ c.conditions, e.IsPlain)
    (hPlain : PlainIn c.display.fragments) :
    ∀ e ∈ (Leaf.choice c).expressions, e.IsPlain := by
  intro e hMem
  rw [expressions, List.mem_append] at hMem
  rcases hMem with hMem | hMem
  · exact hConditions e hMem
  · apply hPlain e
    simpa [fragments, lines] using hMem

end BranchingStory

------------------------------------------------------------
-- Sound Builders
------------------------------------------------------------

namespace BranchingStory

open scoped List

/- The leaves of a content that is being written. -/
def OpenBody.leaves
    (b : OpenBody) : List (Nat × Leaf) :=
  (b.id, .block) :: b.spine.leaves

/- The leaves of a knot that is being written. -/
def OpenKnot.leaves
    (k : OpenKnot) : List (Nat × Leaf) :=
  (k.stitches.values.flatMap fun s => s.body.leaves) ++
    k.detached.flatMap Body.leaves ++
      k.current.elim [] OpenBody.leaves

/- The leaves of what has been built so far. -/
def Builder.leaves
    (b : Builder) : List (Nat × Leaf) :=
  b.knots.values.flatMap Knot.leaves ++
    b.detached.flatMap Body.leaves ++
      b.knot.elim [] OpenKnot.leaves

/- Whether stitches have names of their own for paths. -/
structure StitchesAreSound
    (t : Table String Stitch) : Prop where
  nodup : t.keys.Nodup
  names : ∀ name ∈ t.keys, IsPlaceName name

/-
  Whether a knot has stitches under names for paths.  The root
  knot has a root stitch.
-/
structure Knot.IsSound
    (k : Knot) : Prop where
  name : IsPlaceName k.name
  stitches : StitchesAreSound k.stitches
  notEmpty : k.stitches.entries ≠ []
  root : k.name = rootName → rootName ∈ k.stitches.keys

/- Whether a table holds sound knots under their own names. -/
structure KnotsAreSound
    (t : Table String Knot) : Prop where
  nodup : t.keys.Nodup
  names : ∀ e ∈ t.entries, e.2.name = e.1
  knots : ∀ k ∈ t.values, k.IsSound

/-
  Whether a knot that is being written has a name of its own
  and is not empty, and so does the content at hand.
-/
structure OpenKnot.IsSound
    (known : Table String Knot)
    (k : OpenKnot) : Prop where
  name : IsPlaceName k.name
  isNew : k.name ∉ known.keys
  first : k.repeated = false
  attached : k.detached = []
  stitches : StitchesAreSound k.stitches
  body : ∀ b, k.current = some b →
    ∃ name, b.name = some name ∧ IsPlaceName name ∧
      name ∉ k.stitches.keys
  fresh : k.current = none → k.stitches.entries = []
  root : k.name = rootName →
    rootName ∈ k.stitches.keys ∨
      ∃ b, k.current = some b ∧ b.name = some rootName

/- Whether variables are declared under their own names. -/
structure VarsAreSound
    (t : Table String Declaration) : Prop where
  nodup : t.keys.Nodup
  names : ∀ e ∈ t.entries, e.2.name = e.1

/- Whether all that has been built so far is sound. -/
structure Builder.IsSound
    (b : Builder)
    (numbered : Nat) : Prop where
  leaves : LeavesAreSound b.leaves b.nextId numbered
  knots : KnotsAreSound b.knots
  attached : b.detached = []
  knot : ∀ k, b.knot = some k → k.IsSound b.knots
  fresh : b.knot = none → b.knots.entries = []
  vars : VarsAreSound b.vars

/- A knot that begins with its root stitch is sound. -/
theorem OpenKnot.isSound_root
    {known : Table String Knot}
    {k : OpenKnot}
    {body : OpenBody}
    (hName : IsPlaceName k.name)
    (hNew : k.name ∉ known.keys)
    (hFirst : k.repeated = false)
    (hAttached : k.detached = [])
    (hEmpty : k.stitches.entries = [])
    (hBody : body.name = some rootName) :
    ({ k with current := some body } : OpenKnot).IsSound
      known := by
  have hNone : k.stitches.keys = [] := by
    rw [Table.keys, hEmpty, List.map_nil]
  refine ⟨hName, hNew, hFirst, hAttached, ?_, ?_, ?_, ?_⟩
  · constructor <;> simp [hNone]
  · intro b hSome
    cases hSome
    exact ⟨rootName, hBody, isPlaceName_rootName,
      by simp [hNone]⟩
  · intro hClosed
    cases hClosed
  · intro _
    exact Or.inr ⟨body, rfl, hBody⟩

/- What is built is sound while the knot at hand is. -/
theorem Builder.isSound_of_knot
    {b : Builder}
    {k : OpenKnot}
    {n : Nat}
    (hKnot : b.knot = some k)
    (hLeaves : LeavesAreSound b.leaves b.nextId n)
    (hKnots : KnotsAreSound b.knots)
    (hAttached : b.detached = [])
    (hOpen : k.IsSound b.knots)
    (hVars : VarsAreSound b.vars) :
    b.IsSound n where
  leaves := hLeaves
  knots := hKnots
  attached := hAttached
  knot := by
    intro k' hSome
    rw [hKnot] at hSome
    cases hSome
    exact hOpen
  fresh := by
    intro hNone
    rw [hKnot] at hNone
    cases hNone
  vars := hVars

/- Nothing built yet is sound. -/
theorem Builder.isSound_empty :
    Builder.empty.IsSound 0 where
  leaves := LeavesAreSound.nil
  knots := ⟨List.nodup_nil, by simp [empty, Table.empty],
    by simp [empty]⟩
  attached := rfl
  knot := by
    intro k hKnot
    cases hKnot
  fresh := by
    intro _
    rfl
  vars := ⟨List.nodup_nil, by simp [empty, Table.empty]⟩

end BranchingStory

------------------------------------------------------------
-- Knots And Stitches
------------------------------------------------------------

namespace BranchingStory

open Reading
open scoped List

namespace OpenKnot

variable {known : Table String Knot}

/- What a knot is once its content is finished. -/
structure IsClosed
    (k k' : OpenKnot) : Prop where
  leaves : k'.leaves ~ k.leaves
  current : k'.current = none
  name : k'.name = k.name
  repeated : k'.repeated = k.repeated
  detached : k'.detached = k.detached
  stitches : StitchesAreSound k'.stitches
  root : k.name = rootName → rootName ∈ k'.stitches.keys

/- Names of their own stay so when a new one is added. -/
theorem stitchesAreSound_insert
    {t : Table String Stitch}
    (hSound : StitchesAreSound t)
    {name : String}
    (hName : IsPlaceName name)
    (s : Stitch) :
    StitchesAreSound (t.insert name s) := by
  refine ⟨Table.nodup_keys_insert hSound.nodup name s, ?_⟩
  intro name' hMem
  rw [Table.keys_insert] at hMem
  split at hMem
  · exact hSound.names name' hMem
  · rcases List.mem_append.mp hMem with hOld | hLast
    · exact hSound.names name' hOld
    · rw [List.mem_singleton] at hLast
      rw [hLast]
      exact hName

/- Finishing the content at hand keeps a knot sound. -/
theorem closeBody_isClosed
    {k : OpenKnot}
    (hSound : k.IsSound known) :
    k.IsClosed k.closeBody := by
  unfold closeBody
  cases hCurrent : k.current with
  | none =>
      refine ⟨List.Perm.refl _, hCurrent, rfl, rfl, rfl,
        hSound.stitches, ?_⟩
      intro hRoot
      rcases hSound.root hRoot with hMem | ⟨b, hSome, _⟩
      · exact hMem
      · rw [hCurrent] at hSome
        cases hSome
  | some b =>
      rcases hSound.body b hCurrent with
        ⟨name, hName, hPlace, hNew⟩
      simp only [hName]
      refine ⟨?_, rfl, rfl, rfl, rfl,
        stitchesAreSound_insert hSound.stitches hPlace _, ?_⟩
      · have hEntries :=
          Table.entries_insert_of_notMem hNew
            (⟨name, b.line, ⟨b.id, b.spine.finish⟩⟩ : Stitch)
        simp only [leaves, Table.values, hEntries,
          hSound.attached, hCurrent, List.map_append,
          List.map_cons, List.map_nil, List.flatMap_append,
          List.flatMap_cons, List.flatMap_nil,
          List.append_nil, Option.elim, Body.leaves_eq,
          OpenBody.leaves]
        exact List.Perm.append_left _
          (List.Perm.cons _ b.spine.leaves_finish)
      · intro hRoot
        rw [Table.keys_insert]
        rcases hSound.root hRoot with hMem | ⟨b', hSome, hSame⟩
        · split
          · exact hMem
          · exact List.mem_append_left _ hMem
        · rw [hCurrent] at hSome
          cases hSome
          rw [hName] at hSame
          cases hSame
          rw [if_neg hNew]
          exact List.mem_append_right _ List.mem_cons_self

end OpenKnot

namespace Builder

/-
  Whether all that has been built so far is sound, while no
  knot is being written.
-/
structure IsClosed
    (b : Builder)
    (numbered : Nat) : Prop where
  leaves : LeavesAreSound b.leaves b.nextId numbered
  knots : KnotsAreSound b.knots
  attached : b.detached = []
  knot : b.knot = none
  vars : VarsAreSound b.vars

/- Reports of stitches without content settle nothing. -/
theorem reportEmptyStitches_settles
    (knot : String)
    (ss : List Stitch) :
    (reportEmptyStitches knot ss).Settles fun _ => True := by
  induction ss with
  | nil => exact Settles.pure trivial
  | cons s ss ih =>
      rw [reportEmptyStitches]
      exact Settles.refused rfl s.line
        (ih.mono fun _ _ _ => trivial)

/- A sound knot with a name of its own may be added. -/
theorem knotsAreSound_insert
    {t : Table String Knot}
    (hSound : KnotsAreSound t)
    {k : Knot}
    (hKnot : k.IsSound)
    (hNew : k.name ∉ t.keys) :
    KnotsAreSound (t.insert k.name k) := by
  refine ⟨Table.nodup_keys_insert hSound.nodup _ _, ?_, ?_⟩
  · exact Table.forall_entries_insert hSound.names rfl
  · intro k' hMem
    rw [Table.values,
      Table.entries_insert_of_notMem hNew,
      List.map_append, List.mem_append] at hMem
    rcases hMem with hOld | hLast
    · exact hSound.knots k' hOld
    · rw [List.map_cons, List.map_nil,
        List.mem_singleton] at hLast
      rw [hLast]
      exact hKnot

/- Finishing the knot at hand keeps what is built sound. -/
theorem closeKnot_settles
    (b : Builder) :
    b.closeKnot.Settles fun b' =>
      b'.nextId = b.nextId ∧
        ∀ n, b.IsSound n → b'.IsClosed n := by
  unfold closeKnot
  split
  · next hNone =>
      refine Settles.pure ⟨rfl, fun n hSound => ?_⟩
      exact { hSound with knot := hNone }
  · next k hKnot =>
      apply Settles.refused rfl k.closeBody.line
      refine Settles.bind (reportEmptyStitches_settles _ _)
        fun _ => ?_
      refine Settles.pure fun _ hFilled =>
        ⟨rfl, fun n hSound => ?_⟩
      have hOpen := hSound.knot k hKnot
      have hClosed := OpenKnot.closeBody_isClosed hOpen
      have hFirst : k.closeBody.repeated = false :=
        hClosed.repeated.trans hOpen.first
      have hAttached : k.closeBody.detached = [] :=
        hClosed.detached.trans hOpen.attached
      have hNew : k.closeBody.name ∉ b.knots.keys := by
        rw [hClosed.name]
        exact hOpen.isNew
      have hKnotSound : k.closeBody.toKnot.IsSound := by
        refine ⟨?_, hClosed.stitches, ?_, ?_⟩
        · change IsPlaceName k.closeBody.name
          rw [hClosed.name]
          exact hOpen.name
        · intro hEmpty
          apply hFilled
          rw [List.isEmpty_iff]
          exact hEmpty
        · intro hRoot
          exact hClosed.root (hClosed.name.symm.trans hRoot)
      have hEntries :=
        Table.entries_insert_of_notMem hNew
          k.closeBody.toKnot
      have hOpenLeaves := hClosed.leaves
      simp only [OpenKnot.leaves, hClosed.current, hAttached,
        Option.elim, List.flatMap_nil, List.append_nil]
        at hOpenLeaves
      constructor
      · apply hSound.leaves.perm
        simp only [leaves, hFirst, hAttached,
          hSound.attached, hKnot, Table.values, hEntries,
          Bool.false_eq_true, if_false, List.append_nil,
          List.map_append, List.map_cons, List.map_nil,
          List.flatMap_append, List.flatMap_cons,
          List.flatMap_nil, Option.elim]
        exact List.Perm.append_left _ hOpenLeaves
      · simp only [hFirst, Bool.false_eq_true, if_false]
        exact knotsAreSound_insert hSound.knots hKnotSound hNew
      · simp [hFirst, hAttached, hSound.attached]
      · rfl
      · exact hSound.vars

/- A header of a knot keeps what is built sound. -/
theorem addKnot_settles
    (line : Nat)
    {name : String}
    (hName : IsPlaceName name)
    (hRoot : name ≠ rootName)
    (b : Builder) :
    (b.addKnot line name).Settles fun b' =>
      b'.nextId = b.nextId ∧
        ∀ n, b.IsSound n → b'.IsSound n := by
  unfold addKnot
  refine Settles.bind b.closeKnot_settles fun b' => ?_
  dsimp only
  cases hLookup : b'.knots.lookup name with
  | some k =>
      refine Settles.bind
        (Settles.error (Q := fun _ => False) rfl line)
        fun _ => ?_
      exact Settles.pure fun hFalse => hFalse.elim
  | none =>
      refine Settles.pure fun hBoth =>
        ⟨hBoth.1, fun n hSound => ?_⟩
      have hClosed := hBoth.2 n hSound
      have hNew : name ∉ b'.knots.keys :=
        (Table.lookup_eq_none_iff _ _).mp hLookup
      refine isSound_of_knot rfl ?_ hClosed.knots
        hClosed.attached ?_ hClosed.vars
      · have hLeaves := hClosed.leaves
        simpa [leaves, hClosed.knot, OpenKnot.leaves,
          OpenKnot.empty, Table.values, Table.empty]
          using hLeaves
      · refine ⟨hName, hNew, rfl, rfl, ?_, ?_, ?_, ?_⟩
        · exact ⟨List.nodup_nil, by
            simp [OpenKnot.empty]⟩
        · intro body hBody
          cases hBody
        · intro _
          rfl
        · intro hSame
          exact absurd hSame hRoot

/- A header of a stitch keeps what is built sound. -/
theorem addStitch_settles
    (line : Nat)
    {name : String}
    (hName : IsPlaceName name)
    (b : Builder) :
    (b.addStitch line name).Settles fun b' =>
      ∀ n, b.IsSound n →
        b'.IsSound n ∧ b'.nextId = b.nextId + 1 := by
  unfold addStitch
  split
  · exact Settles.error_pure rfl line b
  · next k hKnot =>
      split
      · exact Settles.error_pure rfl line _
      · next hNew =>
          refine Settles.pure fun n hSound => ⟨?_, rfl⟩
          have hOpen := hSound.knot k hKnot
          have hClosed := OpenKnot.closeBody_isClosed hOpen
          have hNotMem : name ∉ k.closeBody.stitches.keys := by
            intro hMem
            apply hNew
            rw [OpenKnot.hasStitch, Table.contains_eq_true]
            exact hMem
          have hOpenLeaves := hClosed.leaves
          simp only [OpenKnot.leaves, hClosed.current,
            hClosed.detached, hOpen.attached, Option.elim,
            List.flatMap_nil, List.append_nil] at hOpenLeaves
          refine isSound_of_knot rfl ?_ hSound.knots
            hSound.attached ?_ hSound.vars
          · apply hSound.leaves.add_block.perm
            simp only [leaves, hKnot, Option.elim,
              OpenKnot.leaves, OpenKnot.openBody,
              hClosed.detached, hOpen.attached,
              OpenBody.leaves, Spine.leaves_empty,
              List.flatMap_nil, List.append_nil]
            simp only [List.append_assoc]
            apply List.Perm.append_left _
            apply List.Perm.append_left _
            rw [← List.append_assoc]
            exact List.Perm.append_right _ hOpenLeaves
          · refine ⟨?_, ?_, ?_, ?_, hClosed.stitches, ?_, ?_, ?_⟩
            · simp only [OpenKnot.openBody, hClosed.name]
              exact hOpen.name
            · simp only [OpenKnot.openBody, hClosed.name]
              exact hOpen.isNew
            · exact hClosed.repeated.trans hOpen.first
            · exact hClosed.detached.trans hOpen.attached
            · intro body hBody
              cases hBody
              exact ⟨name, rfl, hName, hNotMem⟩
            · intro hNone
              cases hNone
            · intro hRoot
              exact Or.inl
                (hClosed.root
                  (hClosed.name.symm.trans hRoot))

end Builder

end BranchingStory

------------------------------------------------------------
-- Content
------------------------------------------------------------

namespace BranchingStory

open Reading
open scoped List

namespace Builder

/-
  The leaves of what has been built, those of the content at
  hand at the end.
-/
theorem leaves_putBody
    (k : OpenKnot)
    (body : OpenBody)
    (b : Builder) :
    (b.putBody k body).leaves =
      (b.knots.values.flatMap Knot.leaves ++
        b.detached.flatMap Body.leaves ++
          ((k.stitches.values.flatMap fun s =>
              s.body.leaves) ++
            k.detached.flatMap Body.leaves ++
              [(body.id, .block)])) ++
        body.spine.leaves := by
  simp [leaves, putBody, OpenKnot.leaves, OpenBody.leaves]

/-
  What a part that is written next finds: content at hand, a
  knot without any, whose root content is begun, or no knot, so
  that the root knot is opened with its root content.
-/
inductive Finds
    (b : Builder)
    (line : Nat) : Builder → OpenKnot → OpenBody → Prop where
  | content
      {k : OpenKnot}
      {body : OpenBody}
      (hKnot : b.knot = some k)
      (hCurrent : k.current = some body) :
      Finds b line { b with tagsToKnot := false } k body
  | knot
      {k : OpenKnot}
      (hKnot : b.knot = some k)
      (hCurrent : k.current = none) :
      Finds b line
        { b with
          nextId := b.nextId + 1
          tagsToKnot := false }
        k ⟨some rootName, line, b.nextId, .empty⟩
  | nothing
      (hKnot : b.knot = none) :
      Finds b line
        { b with
          nextId := b.nextId + 1
          tagsToKnot := false }
        (.empty rootName line false)
        ⟨some rootName, line, b.nextId, .empty⟩

/- Content for the next part is found in one of these ways. -/
theorem finds_of_ensureBody
    {b b₁ : Builder}
    {k : OpenKnot}
    {body : OpenBody}
    {line : Nat}
    (hEnsure : b.ensureBody line = (b₁, k, body)) :
    b.Finds line b₁ k body := by
  unfold ensureBody at hEnsure
  cases hKnot : b.knot with
  | none =>
      have hRoot : b.knot.getD (.empty rootName line false) =
          .empty rootName line false := by
        rw [hKnot]
        rfl
      rw [hRoot] at hEnsure
      cases hEnsure
      exact .nothing hKnot
  | some k' =>
      have hSame : b.knot.getD (.empty rootName line false) =
          k' := by
        rw [hKnot]
        rfl
      rw [hSame] at hEnsure
      dsimp only at hEnsure
      cases hCurrent : k'.current with
      | none =>
          rw [hCurrent] at hEnsure
          cases hEnsure
          exact .knot hKnot hCurrent
      | some body' =>
          rw [hCurrent] at hEnsure
          cases hEnsure
          exact .content hKnot hCurrent

/- To put the content at hand back changes nothing. -/
theorem putBody_current
    {b : Builder}
    {k : OpenKnot}
    {body : OpenBody}
    (hCurrent : k.current = some body) :
    b.putBody k body = { b with knot := some k } := by
  rw [putBody, ← hCurrent]

/- Content that is begun keeps what is built sound. -/
theorem ensureBody_isSound
    {b b₁ : Builder}
    {k : OpenKnot}
    {body : OpenBody}
    {n line : Nat}
    (hSound : b.IsSound n)
    (hEnsure : b.ensureBody line = (b₁, k, body)) :
    (b₁.putBody k body).IsSound n ∧
      b₁.nextId ≤ b.nextId + 1 := by
  cases finds_of_ensureBody hEnsure with
  | content hKnot hCurrent =>
      have hLeaves := hSound.leaves
      rw [putBody_current hCurrent]
      refine ⟨isSound_of_knot rfl ?_ hSound.knots
        hSound.attached (hSound.knot k hKnot) hSound.vars,
        Nat.le_succ _⟩
      simpa only [leaves, hKnot] using hLeaves
  | knot hKnot hCurrent =>
      have hOpen := hSound.knot k hKnot
      refine ⟨isSound_of_knot rfl ?_ hSound.knots
        hSound.attached ?_ hSound.vars, Nat.le_refl _⟩
      · have hLeaves := hSound.leaves.add_block
        simp only [leaves, hKnot, OpenKnot.leaves,
          hCurrent, Option.elim, List.append_nil]
          at hLeaves
        rw [leaves_putBody]
        simpa [putBody] using hLeaves
      · exact OpenKnot.isSound_root hOpen.name hOpen.isNew
          hOpen.first hOpen.attached (hOpen.fresh hCurrent) rfl
  | nothing hKnot =>
      refine ⟨isSound_of_knot rfl ?_ hSound.knots
        hSound.attached ?_ hSound.vars, Nat.le_refl _⟩
      · have hLeaves := hSound.leaves.add_block
        simp only [leaves, hKnot, Option.elim,
          List.append_nil] at hLeaves
        rw [leaves_putBody]
        simpa [Table.values, Table.empty, OpenKnot.empty,
          putBody] using hLeaves
      · refine OpenKnot.isSound_root isPlaceName_rootName ?_
          rfl rfl rfl rfl
        change rootName ∉ b.knots.entries.map Prod.fst
        rw [hSound.fresh hKnot]
        simp

/-
  Parts with the next numbers that are put into the content at
  hand keep what is built sound.
-/
theorem putBody_isSound
    {b : Builder}
    {k : OpenKnot}
    {body : OpenBody}
    {d d' : Draft}
    (hSound : (b.putBody k body).IsSound d.numbered)
    {spine : Spine}
    {ns : List (Nat × Leaf)}
    {m n : Nat}
    (waiting : List String)
    (hLeaves : spine.leaves ~ body.spine.leaves ++ ns)
    (hIds : ns.map Prod.fst ~ List.range' b.nextId m)
    (hNumbers : d.Numbers d' (alternativesOf ns) n)
    (hPlain :
      ∀ p ∈ ns, ∀ e ∈ p.2.expressions, e.IsPlain) :
    ({ b.putBody k { body with spine := spine } with
        nextId := b.nextId + m
        waitingTags := waiting } : Builder).IsSound
      d'.numbered := by
  refine isSound_of_knot rfl ?_ hSound.knots hSound.attached
    ?_ hSound.vars
  · apply (hSound.leaves.add hIds hNumbers hPlain).perm
    have hAll :=
      leaves_putBody k { body with spine := spine } b
    apply (List.Perm.of_eq hAll).trans
    rw [leaves_putBody, List.append_assoc _ body.spine.leaves]
    exact List.Perm.append_left _ hLeaves
  · have hOpen := hSound.knot _ rfl
    refine ⟨hOpen.name, hOpen.isNew, hOpen.first,
      hOpen.attached, hOpen.stitches, ?_, ?_, ?_⟩
    · intro body' hBody
      cases hBody
      exact hOpen.body body rfl
    · intro hNone
      cases hNone
    · intro hRoot
      rcases hOpen.root hRoot with hMem | ⟨body', hBody, hName⟩
      · exact Or.inl hMem
      · cases hBody
        exact Or.inr ⟨_, rfl, hName⟩

/-
  Whether a step of building only adds issues, takes few
  numbers, and keeps what is built sound unless an error is on
  record.
-/
def Keeps
    (b : Builder)
    (r : Reading Builder)
    (allowed : Nat) : Prop :=
  r.Ensures fun d b' d' =>
    d.Precedes d' ∧ d'.numbered ≤ d.numbered + allowed ∧
      (d'.IsClean → b.IsSound d.numbered →
        b'.IsSound d'.numbered ∧ b'.nextId ≤ b.nextId + 4)

/- A step that hands out no numbers of alternatives. -/
theorem Keeps.of_settles
    {b : Builder}
    {r : Reading Builder}
    {allowed : Nat}
    (hSettles :
      r.Settles fun b' => ∀ n, b.IsSound n →
        b'.IsSound n ∧ b'.nextId ≤ b.nextId + 4) :
    b.Keeps r allowed := by
  intro d b' d' hRun
  rcases hSettles.idles d b' d' hRun with ⟨hAdds, hSame, _⟩
  refine ⟨hAdds, by omega, ?_⟩
  intro hClean hSound
  rw [hSame]
  exact (hSettles.checks d b' d' hRun).2 hClean _ hSound

/-
  Whether a step writes what a line of a kind says to the
  content at hand, and its alternatives get the next numbers.
-/
def WritesLine
    (b : Builder)
    (line : Nat)
    (kind : LineKind)
    (r : Reading Builder)
    (allowed : Nat) : Prop :=
  r.Ensures fun d b' d' =>
    ∃ b₁ k body spine ns waiting,
      b.ensureBody line = (b₁, k, body) ∧
      b' = { b₁.putBody k { body with spine := spine } with
        nextId := b₁.nextId + ns.length
        waitingTags := waiting } ∧
      body.spine.Grows b₁.nextId kind spine ns ∧
      d.Numbers d' (alternativesOf ns) allowed ∧
      ∀ p ∈ ns, ∀ e ∈ p.2.expressions, e.IsPlain

/- What is written to the content at hand is kept. -/
theorem WritesLine.keeps
    {b : Builder}
    {line : Nat}
    {kind : LineKind}
    {r : Reading Builder}
    {allowed : Nat}
    (hWrites : b.WritesLine line kind r allowed)
    (hDepth :
      ∀ depth sticky, kind = .choice depth sticky → 0 < depth) :
    b.Keeps r allowed := by
  intro d b' d' hRun
  rcases hWrites d b' d' hRun with
    ⟨b₁, k, body, spine, ns, waiting, hEnsure, rfl, hGrows,
      hNumbers, hPlain⟩
  have hFew := hGrows.length_le
  rcases hGrows.leaves hDepth with ⟨hLeaves, hIds⟩
  refine ⟨hNumbers.precedes, hNumbers.bounded, ?_⟩
  intro _ hSound
  rcases ensureBody_isSound hSound hEnsure with ⟨hBody, hNext⟩
  refine ⟨putBody_isSound hBody waiting hLeaves hIds hNumbers
    hPlain, ?_⟩
  change b₁.nextId + ns.length ≤ b.nextId + 4
  omega

/- More numbers may be allowed. -/
theorem WritesLine.mono
    {b : Builder}
    {line : Nat}
    {kind : LineKind}
    {r : Reading Builder}
    {m n : Nat}
    (hWrites : b.WritesLine line kind r m)
    (hAllowed : m ≤ n) :
    b.WritesLine line kind r n := by
  refine Ensures.mono hWrites fun d b' d' hAll => ?_
  rcases hAll with
    ⟨b₁, k, body, spine, ns, waiting, hEnsure, hSame, hGrows,
      hNumbers, hPlain⟩
  exact ⟨b₁, k, body, spine, ns, waiting, hEnsure, hSame,
    hGrows, hNumbers.mono hAllowed, hPlain⟩

/- Text or a divert. -/
theorem addLine_writes
    {kind : LineKind}
    (hKind : kind = .text ∨ kind = .divert)
    (line : Nat)
    (text : String)
    (b : Builder) :
    b.WritesLine line kind (b.addLine line text)
      (text.toList.length + 1) := by
  intro d b' d' hRun
  unfold addLine at hRun
  generalize b.ensureBody line = opened at hRun ⊢
  rcases opened with ⟨b₁, k, body⟩
  rcases run_bind_ok.mp hRun with ⟨content, d₁, hLine, hRun⟩
  rcases run_pure_ok.mp hRun with ⟨rfl, rfl⟩
  rcases readLine_writes line _ d content d₁ hLine with
    ⟨hNumbers, hPlain⟩
  refine ⟨b₁, k, body, _, _, [], rfl, ?_,
    .line hKind (content.withTags b₁.waitingTags), ?_, ?_⟩
  · rw [Item.leaves_line]
    rfl
  · simpa [alternativesOf, ContentLine.withTags,
      Leaf.alternatives_line] using hNumbers
  · intro p hMem
    rw [Item.leaves_line, List.mem_singleton] at hMem
    rw [hMem]
    exact Leaf.plain_line hPlain

/- An assignment, which is left out if it cannot be read. -/
theorem addAssignment_writes
    (line : Nat)
    (text : String)
    (b : Builder) :
    b.WritesLine line .assignment (b.addAssignment line text)
      0 := by
  intro d b' d' hRun
  unfold addAssignment at hRun
  generalize b.ensureBody line = opened at hRun ⊢
  rcases opened with ⟨b₁, k, body⟩
  rcases run_bind_ok.mp hRun with ⟨r, d₁, hRead, hRun⟩
  rcases readAssignment_idles line _ d r d₁ hRead with
    ⟨hAdds, hSame, hPlain⟩
  have hNone := Draft.Numbers.none hAdds hSame
  cases r with
  | none =>
      rcases run_pure_ok.mp hRun with ⟨rfl, rfl⟩
      exact ⟨b₁, k, body, body.spine, [], b₁.waitingTags,
        rfl, rfl, .skip, hNone, by simp⟩
  | some p =>
      rcases p with ⟨name, value⟩
      rcases run_pure_ok.mp hRun with ⟨rfl, rfl⟩
      refine ⟨b₁, k, body, _, _, b₁.waitingTags, rfl, ?_,
        .assign name value line, ?_, ?_⟩
      · rw [Item.leaves_assign]
        rfl
      · simpa [alternativesOf, Leaf.alternatives,
          Leaf.fragments, Leaf.lines] using hNone
      · intro p hMem
        rw [Item.leaves_assign, List.mem_singleton] at hMem
        rw [hMem]
        simpa [Leaf.expressions, Leaf.ownExpressions,
          Leaf.fragments, Leaf.lines]
          using hPlain name value rfl

/- The depth that a line gets is one level more at the most. -/
theorem clampDepth_idles
    (line depth innermost : Nat) :
    (clampDepth line depth innermost).Idles fun n =>
      n = min depth (innermost + 1) := by
  unfold clampDepth
  split
  · exact Idles.report_pure _ _ (by omega)
  · exact Idles.pure (by omega)

/- The leaves of a branch that is begun. -/
theorem branchOwnLeaves_add
    {d d' : Draft}
    {c : Choice}
    {n : Nat}
    (branchId outputId : Nat)
    (hNumbers :
      d.Numbers d'
        (alternativesIn c.display.fragments ++
          alternativesIn c.output.fragments) n)
    (hDisplay : PlainIn c.display.fragments)
    (hOutput : PlainIn c.output.fragments)
    (hConditions : ∀ e ∈ c.conditions, e.IsPlain) :
    d.Numbers d' (alternativesOf
        (branchOwnLeaves branchId outputId c)) n ∧
      ∀ p ∈ branchOwnLeaves branchId outputId c,
        ∀ e ∈ p.2.expressions, e.IsPlain := by
  constructor
  · apply hNumbers.perm
    simp only [alternativesOf, branchOwnLeaves,
      List.flatMap_cons, List.flatMap_nil, List.append_nil,
      Leaf.alternatives_line, Leaf.alternatives_choice]
    exact List.perm_append_comm
  · intro p hMem
    rcases List.mem_cons.mp hMem with rfl | hMem
    · exact Leaf.plain_line hOutput
    · rw [List.mem_singleton] at hMem
      rw [hMem]
      exact Leaf.plain_choice hConditions hDisplay

/- A choice. -/
theorem addChoice_writes
    (line depth : Nat)
    (sticky : Bool)
    (text : String)
    (b : Builder) :
    b.WritesLine line (.choice depth sticky)
      (b.addChoice line depth sticky text)
      (2 * text.toList.length + 1) := by
  intro d b' d' hRun
  unfold addChoice at hRun
  generalize b.ensureBody line = opened at hRun ⊢
  rcases opened with ⟨b₁, k, body⟩
  rcases run_bind_ok.mp hRun with ⟨depth', d₁, hClamp, hRun⟩
  rcases clampDepth_idles line depth _ d depth' d₁ hClamp with
    ⟨hAdds, hSame, rfl⟩
  rcases run_bind_ok.mp hRun with ⟨c, d₂, hRead, hRun⟩
  rcases readChoice_writes line sticky _ d₁ c d₂ hRead with
    ⟨hNumbers, hDisplay, hOutput, hConditions⟩
  have hAll := (Draft.Numbers.none hAdds hSame).append hNumbers
  rw [List.nil_append, Nat.zero_add] at hAll
  have hTagged (branchId outputId : Nat) :=
    branchOwnLeaves_add (c := c.withTags b₁.waitingTags)
      branchId outputId hAll hDisplay hOutput hConditions
  dsimp only at hRun
  split at hRun
  · -- The choice begins a set of its own.
    next hDeep =>
      rcases run_pure_ok.mp hRun with ⟨rfl, rfl⟩
      refine ⟨b₁, k, body, _, _, [], rfl, rfl,
        .openSet sticky line (c.withTags b₁.waitingTags)
          (by omega), ?_, ?_⟩
      · simpa [alternativesOf, Leaf.alternatives,
          Leaf.fragments, Leaf.lines]
          using (hTagged _ _).1
      · intro p hMem
        rcases List.mem_cons.mp hMem with rfl | hMem
        · intro e hExpr
          cases hExpr
        · exact (hTagged _ _).2 p hMem
  · -- The choice begins a further branch of a set.
    next hShallow =>
      rcases run_pure_ok.mp hRun with ⟨rfl, rfl⟩
      have hDepth :
          min depth (body.spine.depth + 1) = depth := by
        omega
      rw [hDepth]
      exact ⟨b₁, k, body, _, _, [], rfl, rfl,
        .nextBranch sticky (c.withTags b₁.waitingTags)
          (by omega),
        (hTagged _ _).1, (hTagged _ _).2⟩

/- A gather, with or without text. -/
theorem addGather_writes
    (line depth : Nat)
    (text : String)
    (b : Builder) :
    b.WritesLine line (.gather depth)
      (b.addGather line depth text)
      (text.toList.length + 1) := by
  intro d b' d' hRun
  unfold addGather at hRun
  generalize b.ensureBody line = opened at hRun ⊢
  rcases opened with ⟨b₁, k, body⟩
  rcases run_bind_ok.mp hRun with ⟨depth', d₁, hClamp, hRun⟩
  rcases clampDepth_idles line depth _ d depth' d₁ hClamp with
    ⟨hAdds, hSame, rfl⟩
  have hNone := Draft.Numbers.none hAdds hSame
  dsimp only at hRun
  split at hRun
  · rcases run_pure_ok.mp hRun with ⟨rfl, rfl⟩
    refine ⟨b₁, k, body, _, _, b₁.waitingTags, rfl, ?_,
      .gather depth none, ?_, ?_⟩
    · rw [Item.leaves_gather]
      rfl
    · simpa [alternativesOf, Leaf.alternatives,
        Leaf.fragments, Leaf.lines, Node.leaf]
        using hNone.mono (Nat.zero_le _)
    · intro p hMem e hExpr
      rw [Item.leaves_gather, List.mem_singleton] at hMem
      rw [hMem] at hExpr
      cases hExpr
  · rcases run_bind_ok.mp hRun with ⟨content, d₂, hLine, hRun⟩
    rcases run_pure_ok.mp hRun with ⟨rfl, rfl⟩
    rcases readLine_writes line _ d₁ content d₂ hLine with
      ⟨hNumbers, hPlain⟩
    have hAll := hNone.append hNumbers
    rw [List.nil_append, Nat.zero_add] at hAll
    refine ⟨b₁, k, body, _, _, [], rfl, ?_,
      .gather depth (some (content.withTags b₁.waitingTags)),
      ?_, ?_⟩
    · rw [Item.leaves_gather]
      rfl
    · simpa [alternativesOf, ContentLine.withTags,
        Leaf.alternatives_line, Node.leaf] using hAll
    · intro p hMem
      rw [Item.leaves_gather, List.mem_singleton] at hMem
      rw [hMem]
      exact Leaf.plain_line hPlain

/- A line of content is written to the content at hand. -/
theorem add_writes
    (b : Builder)
    {l : ScriptLine}
    (hContent : l.kind.isContent = true) :
    b.WritesLine l.line l.kind (b.add l)
      (2 * l.text.toList.length + 1) := by
  unfold add
  cases hKind : l.kind with
  | text =>
      exact (addLine_writes (Or.inl rfl) l.line l.text
        b).mono (by omega)
  | divert =>
      exact (addLine_writes (Or.inr rfl) l.line l.text
        b).mono (by omega)
  | assignment =>
      exact (addAssignment_writes l.line l.text b).mono
        (Nat.zero_le _)
  | choice depth sticky =>
      exact addChoice_writes l.line depth sticky l.text b
  | gather depth =>
      exact (addGather_writes l.line depth l.text b).mono
        (by omega)
  | _ =>
      rw [hKind] at hContent
      cases hContent

end Builder

end BranchingStory

------------------------------------------------------------
-- Declarations And Tags
------------------------------------------------------------

namespace BranchingStory

open Reading

namespace Builder

/- A declaration keeps what is built sound. -/
theorem addDeclaration_settles
    (line : Nat)
    (constant : Bool)
    (text : String)
    (b : Builder) :
    (b.addDeclaration line constant text).Settles fun b' =>
      ∀ n, b.IsSound n →
        b'.IsSound n ∧ b'.nextId = b.nextId := by
  unfold addDeclaration
  split
  · exact Settles.error_pure rfl line b
  · refine Settles.bind
      (Settles.of_idles (readDeclaration_idles line _))
      fun r => ?_
    cases r with
    | none =>
        exact Settles.pure fun _ n hSound => ⟨hSound, rfl⟩
    | some p =>
        rcases p with ⟨name, v⟩
        dsimp only
        cases hLookup : b.vars.lookup name with
        | some d => exact Settles.error_pure rfl line b
        | none =>
            refine Settles.pure fun _ n hSound => ⟨?_, rfl⟩
            exact { hSound with
              vars := {
                nodup := Table.nodup_keys_insert
                  hSound.vars.nodup _ _
                names := Table.forall_entries_insert
                  hSound.vars.names rfl } }

/- A line of tags keeps what is built sound. -/
theorem addTags_isSound
    (text : String)
    {b : Builder}
    {n : Nat}
    (hSound : b.IsSound n) :
    (b.addTags text).IsSound n ∧
      (b.addTags text).nextId = b.nextId := by
  unfold addTags
  generalize splitTags text.toList = parts
  rcases parts with ⟨content, tags⟩
  dsimp only
  split
  · exact ⟨{ hSound with vars := hSound.vars }, rfl⟩
  · next k hKnot =>
      split
      · have hOpen := hSound.knot k hKnot
        refine ⟨isSound_of_knot rfl ?_ hSound.knots
          hSound.attached { hOpen with root := hOpen.root }
          hSound.vars, rfl⟩
        have hLeaves := hSound.leaves
        simp only [leaves, hKnot] at hLeaves
        exact hLeaves
      · exact ⟨{ hSound with vars := hSound.vars }, rfl⟩

end Builder

end BranchingStory

------------------------------------------------------------
-- Building
------------------------------------------------------------

namespace BranchingStory

open Reading

namespace Builder

/- Every proper line keeps what is built sound. -/
theorem add_keeps
    (b : Builder)
    {l : ScriptLine}
    (hProper : l.IsProper) :
    b.Keeps (b.add l) (2 * l.text.toList.length + 1) := by
  cases hContent : l.kind.isContent with
  | true => exact (add_writes b hContent).keeps hProper.depth
  | false =>
      apply Keeps.of_settles
      unfold add
      cases hKind : l.kind with
      | knot =>
          rcases hProper.name (Or.inl hKind) with
            ⟨hName, hRoot⟩
          refine (addKnot_settles l.line hName hRoot b).mono
            fun b' hBoth n hSound => ?_
          exact ⟨hBoth.2 n hSound, by omega⟩
      | stitch =>
          rcases hProper.name (Or.inr hKind) with ⟨hName, _⟩
          refine (addStitch_settles l.line hName b).mono
            fun b' hStitch n hSound => ?_
          rcases hStitch n hSound with ⟨hSound', hNext⟩
          exact ⟨hSound', by omega⟩
      | declaration constant =>
          refine (addDeclaration_settles l.line constant
            l.text b).mono fun b' hVars n hSound => ?_
          rcases hVars n hSound with ⟨hSound', hNext⟩
          exact ⟨hSound', by omega⟩
      | tag =>
          refine Settles.pure fun n hSound => ?_
          rcases addTags_isSound l.text hSound with
            ⟨hSound', hNext⟩
          exact ⟨hSound', by omega⟩
      | _ =>
          rw [hKind] at hContent
          cases hContent

/- All lines of a script keep what is built sound. -/
theorem foldlM_add_keeps
    (ls : List ScriptLine)
    (hProper : ∀ l ∈ ls, l.IsProper)
    (b : Builder) :
    (ls.foldlM Builder.add b).Ensures fun d b' d' =>
      d.Precedes d' ∧
        d'.numbered ≤
          d.numbered + 2 * scriptLength ls + ls.length ∧
        (d'.IsClean → b.IsSound d.numbered →
          b'.IsSound d'.numbered ∧
            b'.nextId ≤ b.nextId + 4 * ls.length) := by
  induction ls generalizing b with
  | nil =>
      refine Ensures.pure fun d => ?_
      exact ⟨Draft.Precedes.refl d, by simp,
        fun _ hSound => ⟨hSound, by simp⟩⟩
  | cons l ls ih =>
      intro d b' d' hRun
      rcases run_bind_ok.mp hRun with ⟨b₁, d₁, hFirst, hRest⟩
      rcases
          add_keeps b (hProper l List.mem_cons_self)
            d b₁ d₁ hFirst with
        ⟨hAdds, hCount, hKeeps⟩
      have hProper' : ∀ l' ∈ ls, l'.IsProper :=
        fun l' hMem => hProper l' (List.mem_cons_of_mem _ hMem)
      rcases ih hProper' b₁ d₁ b' d' hRest with
        ⟨hAdds', hCount', hKeeps'⟩
      refine ⟨hAdds.trans hAdds', ?_, ?_⟩
      · simp only [scriptLength, List.length_cons] at hCount' ⊢
        omega
      · intro hClean hSound
        rcases hKeeps (hAdds'.isClean hClean) hSound with
          ⟨hSound₁, hNext₁⟩
        rcases hKeeps' hClean hSound₁ with ⟨hSound', hNext'⟩
        refine ⟨hSound', ?_⟩
        rw [List.length_cons]
        omega

/- Where the story starts there is a stitch. -/
theorem hasAddress_start?
    {b : Builder}
    (hKnots : KnotsAreSound b.knots)
    {o : Outline}
    (hOutline : o.knots = b.knots)
    {a : Address}
    (hStart : b.start? = some a) :
    o.hasAddress a = true := by
  unfold start? at hStart
  rw [← hOutline] at hKnots hStart
  split at hStart
  · next hRoot =>
      cases hStart
      rcases Option.isSome_iff_exists.mp hRoot with ⟨k, hKnot⟩
      have hMem := Table.mem_entries_of_lookup hKnot
      have hName := hKnots.names _ hMem
      have hSound :=
        hKnots.knots k (Table.mem_values_of_lookup hKnot)
      exact Outline.hasAddress_of_mem_keys hKnot
        (hSound.root hName)
  · rcases List.exists_of_findSome?_eq_some hStart with
      ⟨k, hMem, hSome⟩
    rcases (Table.mem_values_iff _ _).mp hMem with
      ⟨name, hEntry⟩
    rcases Option.map_eq_some_iff.mp hSome with
      ⟨s, hDefault, hAddress⟩
    cases hAddress
    have hName : k.name = name := hKnots.names _ hEntry
    have hKnot := Table.lookup_of_mem hKnots.nodup hEntry
    rw [← hName] at hKnot
    exact Outline.hasAddress_of_mem_keys hKnot
      (Knot.mem_keys_of_defaultStitch? hDefault)

end Builder

/-
  Whether an outline is as it should be before its names are
  resolved: what builders keep sound is sound, and the story
  starts at a stitch.
-/
structure Outline.IsBuilt
    (o : Outline)
    (numbered : Nat) : Prop where
  leaves : LeavesAreSound o.leaves o.size numbered
  knots : KnotsAreSound o.knots
  attached : o.detached = []
  vars : VarsAreSound o.vars
  start : o.hasAddress o.start = true

/-
  An outline that is built holds what the builder holds once
  its last knot is closed.
-/
theorem buildOutline_ok
    {ls : List ScriptLine}
    {d d' : Draft}
    {o : Outline}
    (hBuild : (buildOutline ls).run d = .ok (some o, d')) :
    ∃ b d₁ b' start,
      (ls.foldlM Builder.add .empty).run d = .ok (b, d₁) ∧
        b.closeKnot.run d₁ = .ok (b', d') ∧
        b'.start? = some start ∧
        o =
          { knots := b'.knots
            start := start
            vars := b'.vars
            tags := b'.tags
            detached := b'.detached
            size := b'.nextId } := by
  rcases run_bind_ok.mp hBuild with ⟨b, d₁, hLines, hRun⟩
  rcases run_bind_ok.mp hRun with ⟨b', d₂, hClose, hRun⟩
  cases hStart : b'.start? with
  | none =>
      rw [hStart] at hRun
      rcases run_bind_ok.mp hRun with ⟨_, _, _, hRun⟩
      cases (run_pure_ok.mp hRun).1
  | some start =>
      rw [hStart] at hRun
      rcases run_pure_ok.mp hRun with ⟨hSome, rfl⟩
      exact ⟨b, d₁, b', start, hLines, hClose, hStart,
        Option.some.inj hSome.symm⟩

/- The outline of a script without errors. -/
theorem buildOutline_ensures
    (ls : List ScriptLine)
    (hProper : ∀ l ∈ ls, l.IsProper) :
    (buildOutline ls).Ensures fun d o? d' =>
      d.Precedes d' ∧
        d'.numbered ≤
          d.numbered + 2 * scriptLength ls + ls.length ∧
        (d'.IsClean → d.numbered = 0 →
          ∃ o, o? = some o ∧ o.IsBuilt d'.numbered ∧
            o.size ≤ 4 * ls.length) := by
  intro d o? d' hRun
  rcases run_bind_ok.mp hRun with ⟨b₁, d₁, hLines, hRun⟩
  rcases
      Builder.foldlM_add_keeps ls hProper .empty d b₁ d₁
        hLines with
    ⟨hAdds₁, hCount, hKeeps⟩
  rcases run_bind_ok.mp hRun with ⟨b₂, d₂, hClose, hRun⟩
  have hSettles := b₁.closeKnot_settles
  rcases hSettles.idles d₁ b₂ d₂ hClose with
    ⟨hAdds₂, hSame, _⟩
  cases hStart : b₂.start? with
  | none =>
      rw [hStart] at hRun
      have hReport :
          Settles (do
            Reading.report .emptyStory 1
            return (none : Option Outline)) fun _ => False :=
        Settles.error_pure rfl 1 none
      rcases hReport.idles d₂ o? d' hRun with
        ⟨hAdds₃, hSame₃, _⟩
      refine ⟨(hAdds₁.trans hAdds₂).trans hAdds₃,
        by omega, ?_⟩
      intro hClean
      exact ((hReport.checks d₂ o? d' hRun).2 hClean).elim
  | some start =>
      rw [hStart] at hRun
      rcases run_pure_ok.mp hRun with ⟨rfl, rfl⟩
      refine ⟨hAdds₁.trans hAdds₂, by omega, ?_⟩
      intro hClean hZero
      rcases
          hKeeps
          (hAdds₂.isClean hClean)
          (hZero ▸ Builder.isSound_empty) with
        ⟨hSound, hNext⟩
      rcases (hSettles.checks d₁ b₂ d₂ hClose).2 hClean with
        ⟨hId, hClosed⟩
      have hBuilt := hClosed d₁.numbered hSound
      refine ⟨_, rfl, ?_, ?_⟩
      · constructor
        · have hLeaves := hBuilt.leaves
          rw [hSame, Outline.leaves_eq]
          simpa [Builder.leaves, hBuilt.knot] using hLeaves
        · exact hBuilt.knots
        · exact hBuilt.attached
        · exact hBuilt.vars
        · exact Builder.hasAddress_start? hBuilt.knots rfl
            hStart
      · change b₂.nextId ≤ 4 * ls.length
        rw [hId]
        simpa [Builder.empty] using hNext

end BranchingStory
