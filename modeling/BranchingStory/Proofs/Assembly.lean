import BranchingStory.Proofs.LongNumbers
import BranchingStory.Proofs.OpenFrames
import BranchingStory.Proofs.Verbatim

/-
  This file follows what is built from line to line, whether or
  not issues are reported.  Every line leaves the contents as
  they are, closes the content at hand, opens a new one or
  writes to it; from this it follows that the nodes are linked
  as they should be at any time.

  Key definitions include:
    * `Builder.arena`
    * `Builder.frames`
    * `Builder.IsTidy`
    * `Builder.Turns`
    * `Builder.IsAssembled`
    * `framesAfter`

  Key theorems include:
    * `Builder.closeKnot_closes`
    * `Builder.add_turns`
    * `Builder.Turns.isAssembled`
    * `Builder.Turns.frames`
    * `arenas_are_sound`
-/

------------------------------------------------------------
-- Contents That Are Built
------------------------------------------------------------

namespace BranchingStory

/- The contents of the stitches of a knot. -/
def Knot.bodies
    (k : Knot) : List Body :=
  k.stitches.values.map Stitch.body

/- A content at hand as it would be if it were finished now. -/
def OpenBody.toBody
    (b : OpenBody) : Body :=
  ⟨b.id, b.spine.finish⟩

/- The frames of a content at hand, the innermost first. -/
def OpenBody.frames
    (b : OpenBody) : List OpenFrame :=
  Spine.framesOver b.id b.spine.rungs none

/- The contents of a knot at hand that are finished. -/
def OpenKnot.finished
    (k : OpenKnot) : List Body :=
  k.stitches.values.map Stitch.body ++ k.detached

/- The content at hand, if there is one, as a list. -/
def openBodies
    (body? : Option OpenBody) : List Body :=
  body?.elim [] fun b => [b.toBody]

namespace Builder

/- The contents that are finished. -/
def finished
    (b : Builder) : List Body :=
  b.knots.values.flatMap Knot.bodies ++ b.detached ++
    b.knot.elim [] OpenKnot.finished

/- The content at hand. -/
def body?
    (b : Builder) : Option OpenBody :=
  b.knot.bind OpenKnot.current

/- All contents, the one at hand at the end. -/
def bodies
    (b : Builder) : List Body :=
  b.finished ++ openBodies b.body?

/- The nodes that have been made, in their order. -/
def arena
    (b : Builder) : List Node :=
  arenaOf b.bodies

/- The frames that are open, the innermost first. -/
def frames
    (b : Builder) : List OpenFrame :=
  b.body?.elim [] OpenBody.frames

end Builder

/-
  Whether no content is lost in a knot when the one at hand is
  finished: its name is new, or the knot is kept apart.
-/
structure OpenKnot.IsTidy
    (known : Table String Knot)
    (k : OpenKnot) : Prop where
  isNew : k.repeated = false → k.name ∉ known.keys
  body : ∀ b name, k.current = some b →
    b.name = some name → name ∉ k.stitches.keys
  fresh : k.current = none → k.stitches.entries = []

/- Whether no content is lost whatever is finished next. -/
structure Builder.IsTidy
    (b : Builder) : Prop where
  knot : ∀ k, b.knot = some k → k.IsTidy b.knots
  fresh : b.knot = none → b.knots.entries = []

/- What is built is tidy while the knot at hand is. -/
theorem Builder.isTidy_of_knot
    {b : Builder}
    {k : OpenKnot}
    (hKnot : b.knot = some k)
    (hTidy : k.IsTidy b.knots) :
    b.IsTidy where
  knot := by
    intro k' hSome
    rw [hKnot] at hSome
    cases hSome
    exact hTidy
  fresh := by
    intro hNone
    rw [hKnot] at hNone
    cases hNone

theorem Builder.isTidy_empty :
    Builder.empty.IsTidy where
  knot := by
    intro k hKnot
    cases hKnot
  fresh := fun _ => rfl

end BranchingStory

------------------------------------------------------------
-- What A Line Does
------------------------------------------------------------

namespace BranchingStory

open scoped List

/- Whether a kind of line is about no content at all. -/
def LineKind.isAside : LineKind → Bool
  | declaration _ => true
  | tag => true
  | _ => false

namespace Builder

variable (b b' : Builder)

/- Whether all contents stay as they are. -/
structure Idles : Prop where
  finished : b'.finished = b.finished
  body : b'.body? = b.body?
  next : b'.nextId = b.nextId

/- Whether the content at hand is finished. -/
structure Closes : Prop where
  finished : b'.finished ~ b.bodies
  body : b'.body? = none
  next : b'.nextId = b.nextId

/- Whether a new content with the next number is begun. -/
structure Opens : Prop where
  finished : b'.finished ~ b.bodies
  body : ∃ name line,
    b'.body? = some ⟨name, line, b.nextId, .empty⟩
  next : b'.nextId = b.nextId + 1

/- Whether there is a content at hand, if need be a new one. -/
def Readies : Prop :=
  (∃ body, b.body? = some body) ∧ b.Idles b' ∨
    b.body? = none ∧ b.Opens b'

/- Whether a line of a kind is written to the content at hand. -/
def Writes
    (kind : LineKind)
    (ns : List (Nat × Leaf)) : Prop :=
  b'.finished = b.finished ∧
    b'.nextId = b.nextId + ns.length ∧
    ∃ body spine, b.body? = some body ∧
      b'.body? = some { body with spine := spine } ∧
      body.spine.Grows b.nextId kind spine ns

/- What a line does, and the leaves that it writes. -/
inductive Turns
    (b : Builder)
    (l : ScriptLine) :
    Builder → List (Nat × Leaf) → Prop where
  | aside {b' : Builder} (hKind : l.kind.isAside = true)
      (hIdles : b.Idles b') : Turns b l b' []
  | lost {b' : Builder} (hKind : l.kind = .stitch)
      (hKnot : b.knot = none) (hIdles : b.Idles b') :
      Turns b l b' []
  | knot {b' : Builder} (hKind : l.kind = .knot)
      (hCloses : b.Closes b') : Turns b l b' []
  | stitch {b' : Builder} (hKind : l.kind = .stitch)
      (hKnot : b.knot ≠ none) (hOpens : b.Opens b') :
      Turns b l b' []
  | content {b₀ b' : Builder} {ns : List (Nat × Leaf)}
      (hKind : l.kind.isContent = true)
      (hReadies : b.Readies b₀)
      (hWrites : b₀.Writes b' l.kind ns) : Turns b l b' ns

end Builder

end BranchingStory

------------------------------------------------------------
-- Knots And Stitches
------------------------------------------------------------

namespace BranchingStory

open Reading
open scoped List

namespace OpenKnot

variable {known : Table String Knot}

/- A knot keeps its name when its content is finished. -/
theorem closeBody_eq
    (k : OpenKnot) :
    k.closeBody.name = k.name ∧
      k.closeBody.repeated = k.repeated ∧
      k.closeBody.current = none := by
  unfold closeBody
  split
  · next hNone => exact ⟨rfl, rfl, hNone⟩
  · dsimp only
    split <;> exact ⟨rfl, rfl, rfl⟩

/- The content at hand is added when it is finished. -/
theorem finished_closeBody
    {k : OpenKnot}
    (hTidy : k.IsTidy known) :
    k.closeBody.finished ~
      k.finished ++ openBodies k.current := by
  unfold closeBody
  cases hCurrent : k.current with
  | none =>
      simp [openBodies]
  | some body =>
      dsimp only
      cases hName : body.name with
      | none =>
          simp [finished, openBodies, OpenBody.toBody]
      | some name =>
          have hEntries :=
            Table.entries_insert_of_notMem
              (hTidy.body body name hCurrent hName)
              (⟨name, body.line, body.toBody⟩ : Stitch)
          simp only [OpenBody.toBody] at hEntries
          simp only [finished, Table.values, hEntries,
            openBodies, OpenBody.toBody, Option.elim,
            List.map_append, List.map_cons, List.map_nil,
            List.append_assoc]
          exact List.Perm.append_left _ List.perm_append_comm

end OpenKnot

namespace Builder

/- Reports of stitches without content hand out no numbers. -/
theorem reportEmptyStitches_idles
    (knot : String)
    (ss : List Stitch) :
    (reportEmptyStitches knot ss).Idles fun _ => True :=
  (reportEmptyStitches_settles knot ss).idles

/- Finishing the knot at hand loses no content. -/
theorem closeKnot_closes
    {b : Builder}
    (hTidy : b.IsTidy) :
    b.closeKnot.Idles fun b' =>
      b.Closes b' ∧ b'.knot = none := by
  unfold closeKnot
  cases hKnot : b.knot with
  | none =>
      refine Reading.Idles.pure ⟨⟨?_, ?_, rfl⟩, rfl⟩
      · simp [bodies, finished, body?, openBodies, hKnot]
      · simp [body?]
  | some k =>
      have hOpen := hTidy.knot k hKnot
      rcases k.closeBody_eq with ⟨hName, hRepeated, _⟩
      have hFinished := OpenKnot.finished_closeBody hOpen
      apply Idles.guarded (Idles.report _ _)
      refine Idles.bind (reportEmptyStitches_idles _ _)
        fun _ _ => ?_
      refine Idles.pure ⟨⟨?_, rfl, rfl⟩, rfl⟩
      have hBodies :
          b.bodies =
            (b.knots.values.flatMap Knot.bodies ++
              b.detached) ++
                (k.finished ++ openBodies k.current) := by
        simp [bodies, finished, body?, hKnot]
      rw [hBodies]
      refine List.Perm.trans ?_
        (List.Perm.append_left _ hFinished)
      cases hFirst : k.repeated with
      | true =>
          simp only [finished, hRepeated, hFirst, if_true,
            Option.elim, List.append_nil, OpenKnot.finished,
            List.append_assoc]
          apply List.Perm.append_left _
          apply List.Perm.append_left _
          exact List.perm_append_comm
      | false =>
          have hNew := hOpen.isNew hFirst
          rw [← hName] at hNew
          have hEntries :=
            Table.entries_insert_of_notMem hNew
              k.closeBody.toKnot
          simp only [finished, hRepeated, hFirst,
            Bool.false_eq_true, if_false, Option.elim,
            List.append_nil, Table.values, hEntries,
            List.map_append, List.map_cons, List.map_nil,
            List.flatMap_append, List.flatMap_cons,
            List.flatMap_nil, OpenKnot.finished,
            List.append_assoc]
          apply List.Perm.append_left _
          exact List.perm_append_comm_assoc _ _ _

/- A header of a knot finishes the content at hand. -/
theorem addKnot_closes
    {b : Builder}
    (hTidy : b.IsTidy)
    (line : Nat)
    (name : String) :
    (b.addKnot line name).Idles fun b' =>
      b.Closes b' ∧ b'.IsTidy := by
  unfold addKnot
  refine Idles.bind (closeKnot_closes hTidy) fun b₁ hBoth => ?_
  rcases hBoth with ⟨hCloses, hNone⟩
  have hFinished :
      b₁.finished =
        b₁.knots.values.flatMap Knot.bodies ++
          b₁.detached := by
    simp [finished, hNone]
  have hAll (first : Bool)
      (hFirst : first = false → name ∉ b₁.knots.keys) :
      let b' : Builder :=
        { b₁ with
          knot := some (.empty name line first)
          headerSeen := true
          tagsToKnot := true }
      b.Closes b' ∧ b'.IsTidy := by
    refine ⟨⟨?_, rfl, hCloses.next⟩, isTidy_of_knot rfl ?_⟩
    · have hSame := hCloses.finished
      rw [hFinished] at hSame
      simpa [finished, OpenKnot.finished, OpenKnot.empty,
        Table.values, Table.empty] using hSame
    · refine ⟨hFirst, ?_, fun _ => rfl⟩
      intro body name' hBody
      cases hBody
  cases hLookup : b₁.knots.lookup name with
  | some k =>
      exact Idles.report_pure _ _
        (hAll true fun hFalse => by cases hFalse)
  | none =>
      exact Idles.pure (hAll false fun _ =>
        (Table.lookup_eq_none_iff _ _).mp hLookup)

/- A header of a stitch begins a new content in a knot. -/
theorem addStitch_turns
    {b : Builder}
    (hTidy : b.IsTidy)
    {l : ScriptLine}
    (hKind : l.kind = .stitch) :
    (b.addStitch l.line l.text).Idles fun b' =>
      b.Turns l b' [] ∧ b'.IsTidy := by
  unfold addStitch
  cases hKnot : b.knot with
  | none =>
      exact Idles.report_pure _ _
        ⟨.lost hKind hKnot ⟨rfl, rfl, rfl⟩, hTidy⟩
  | some k =>
      have hOpen := hTidy.knot k hKnot
      rcases k.closeBody_eq with ⟨hName, hRepeated, _⟩
      have hFinished := OpenKnot.finished_closeBody hOpen
      have hSome : b.knot ≠ none := by
        rw [hKnot]
        exact Option.some_ne_none k
      have hBegun (name : Option String) (toKnot : Bool)
          (hNew : ∀ s, name = some s →
            s ∉ k.closeBody.stitches.keys) :
          let b' : Builder :=
            { b with
              knot := some (k.openBody name l.line b.nextId)
              nextId := b.nextId + 1
              tagsToKnot := toKnot }
          b.Turns l b' [] ∧ b'.IsTidy := by
        refine ⟨.stitch hKind hSome
          ⟨?_, ⟨name, l.line, rfl⟩, rfl⟩,
          isTidy_of_knot rfl ?_⟩
        · have hBodies :
              b.bodies =
                (b.knots.values.flatMap Knot.bodies ++
                  b.detached) ++
                    (k.finished ++ openBodies k.current) := by
            simp [bodies, finished, body?, hKnot]
          rw [hBodies]
          exact List.Perm.append_left _ hFinished
        · refine ⟨?_, ?_, ?_⟩
          · intro hFirst
            change k.closeBody.name ∉ b.knots.keys
            rw [hName]
            exact hOpen.isNew (hRepeated.symm.trans hFirst)
          · intro body s hBody hSame
            cases hBody
            exact hNew s hSame
          · intro hNone
            cases hNone
      dsimp only
      split
      · exact Idles.report_pure _ _
          (hBegun none b.tagsToKnot fun s hSame => by
            cases hSame)
      · next hHas =>
          refine Idles.pure (hBegun _ _ ?_)
          intro s hSame hMem
          cases hSame
          apply hHas
          rw [OpenKnot.hasStitch, Table.contains_eq_true]
          exact hMem

end Builder

end BranchingStory

------------------------------------------------------------
-- Content
------------------------------------------------------------

namespace BranchingStory

open Reading
open scoped List

namespace Builder

/- A line of content finds a content to be written to. -/
theorem ensureBody_readies
    {b b₁ : Builder}
    {k : OpenKnot}
    {body : OpenBody}
    {line : Nat}
    (hTidy : b.IsTidy)
    (hEnsure : b.ensureBody line = (b₁, k, body)) :
    b.Readies (b₁.putBody k body) ∧
      (b₁.putBody k body).IsTidy := by
  cases finds_of_ensureBody hEnsure with
  | content hKnot hCurrent =>
      rw [putBody_current hCurrent]
      refine ⟨Or.inl ⟨⟨body, ?_⟩, ?_, ?_, rfl⟩,
        isTidy_of_knot rfl (hTidy.knot k hKnot)⟩
      · simp [body?, hKnot, hCurrent]
      · simp [finished, hKnot]
      · simp [body?, hKnot]
  | knot hKnot hCurrent =>
      have hOpen := hTidy.knot k hKnot
      have hEmpty := hOpen.fresh hCurrent
      have hNone : b.body? = none := by
        simp [body?, hKnot, hCurrent]
      refine ⟨Or.inr ⟨hNone, ?_, ⟨_, _, rfl⟩, rfl⟩,
        isTidy_of_knot rfl ⟨hOpen.isNew, ?_, ?_⟩⟩
      · simp [bodies, hNone, openBodies, finished,
          putBody, hKnot, OpenKnot.finished]
      · intro body' name _ _ hMem
        rw [Table.keys, hEmpty] at hMem
        cases hMem
      · intro hClosed
        cases hClosed
  | nothing hKnot =>
      have hEmpty := hTidy.fresh hKnot
      have hNone : b.body? = none := by
        simp [body?, hKnot]
      refine ⟨Or.inr ⟨hNone, ?_, ⟨_, _, rfl⟩, rfl⟩,
        isTidy_of_knot rfl ⟨fun _ => ?_, ?_, ?_⟩⟩
      · simp [bodies, hNone, openBodies, finished, putBody,
          hKnot, OpenKnot.finished, OpenKnot.empty,
          Table.values, Table.empty]
      · change rootName ∉ b.knots.entries.map Prod.fst
        rw [hEmpty]
        simp
      · intro body name _ _
        simp [OpenKnot.empty]
      · intro hClosed
        cases hClosed

/-
  Whether a step adds what a line does, with alternatives that
  get the next numbers.
-/
def TurnsBy
    (b : Builder)
    (l : ScriptLine)
    (r : Reading Builder) : Prop :=
  r.Ensures fun d b' d' =>
    b'.IsTidy ∧ ∃ ns n, b.Turns l b' ns ∧
      d.Numbers d' (alternativesOf ns) n ∧
      ∀ p ∈ ns, ∀ e ∈ p.2.expressions, e.IsPlain

/- A step that writes nothing. -/
theorem TurnsBy.of_idles
    {b : Builder}
    {l : ScriptLine}
    {r : Reading Builder}
    (hIdles :
      r.Idles fun b' => b.Turns l b' [] ∧ b'.IsTidy) :
    b.TurnsBy l r := by
  intro d b' d' hRun
  rcases hIdles d b' d' hRun with
    ⟨hAdds, hSame, hTurns, hTidy⟩
  exact ⟨hTidy, [], 0, hTurns,
    Draft.Numbers.none hAdds hSame, by simp⟩

variable {b : Builder}
variable {l : ScriptLine}
variable (hTidy : b.IsTidy)

include hTidy

/- A line of content is written to a content at hand. -/
theorem turns_of_writes
    {r : Reading Builder}
    {n : Nat}
    (hKind : l.kind.isContent = true)
    (hWrites : b.WritesLine l.line l.kind r n) :
    b.TurnsBy l r := by
  intro d b' d' hRun
  rcases hWrites d b' d' hRun with
    ⟨b₁, k, body, spine, ns, waiting, hEnsure, rfl, hGrows,
      hNumbers, hPlain⟩
  rcases ensureBody_readies hTidy hEnsure with
    ⟨hReadies, hTidy₁⟩
  have hOpen := hTidy₁.knot _ rfl
  refine ⟨isTidy_of_knot rfl ⟨hOpen.isNew, ?_, ?_⟩, ns, n,
    .content hKind hReadies
      ⟨rfl, rfl, body, spine, rfl, rfl, hGrows⟩,
    hNumbers, hPlain⟩
  · intro body' name hBody hName
    cases hBody
    exact hOpen.body body name rfl hName
  · intro hNone
    cases hNone

/- A declaration changes no content. -/
theorem addDeclaration_idles
    (line : Nat)
    (constant : Bool)
    (text : String) :
    (b.addDeclaration line constant text).Idles fun b' =>
      b.Idles b' ∧ b'.IsTidy := by
  have hSame : b.Idles b ∧ b.IsTidy :=
    ⟨⟨rfl, rfl, rfl⟩, hTidy⟩
  unfold addDeclaration
  split
  · exact Idles.report_pure _ _ hSame
  · refine Idles.bind (readDeclaration_idles line _)
      fun r _ => ?_
    split
    · exact Idles.pure hSame
    · split
      · exact Idles.report_pure _ _ hSame
      · exact Idles.pure
          ⟨⟨rfl, rfl, rfl⟩, ⟨hTidy.knot, hTidy.fresh⟩⟩

/- A line of tags changes no content. -/
theorem addTags_idles
    (text : String) :
    b.Idles (b.addTags text) ∧ (b.addTags text).IsTidy := by
  unfold addTags
  generalize splitTags text.toList = parts
  rcases parts with ⟨content, tags⟩
  dsimp only
  split
  · exact ⟨⟨rfl, rfl, rfl⟩, ⟨hTidy.knot, hTidy.fresh⟩⟩
  · next k hKnot =>
      split
      · have hOpen := hTidy.knot k hKnot
        refine ⟨⟨?_, ?_, rfl⟩, isTidy_of_knot rfl
          ⟨hOpen.isNew, hOpen.body, hOpen.fresh⟩⟩
        · simp [finished, hKnot, OpenKnot.finished]
        · simp [body?, hKnot]
      · exact ⟨⟨rfl, rfl, rfl⟩, ⟨hTidy.knot, hTidy.fresh⟩⟩

/- What every line does. -/
theorem add_turns
    (l : ScriptLine) :
    b.TurnsBy l (b.add l) := by
  cases hContent : l.kind.isContent with
  | true =>
      exact turns_of_writes hTidy hContent
        (add_writes b hContent)
  | false =>
      apply TurnsBy.of_idles
      unfold add
      cases hKind : l.kind with
      | knot =>
          exact Ensures.mono
            (addKnot_closes hTidy l.line l.text)
            fun _ _ _ hAll => ⟨hAll.1, hAll.2.1,
              .knot hKind hAll.2.2.1, hAll.2.2.2⟩
      | stitch => exact addStitch_turns hTidy hKind
      | declaration constant =>
          exact Ensures.mono
            (addDeclaration_idles hTidy l.line constant
              l.text)
            fun _ _ _ hAll => ⟨hAll.1, hAll.2.1,
              .aside (by rw [hKind]; rfl) hAll.2.2.1,
              hAll.2.2.2⟩
      | tag =>
          rcases addTags_idles hTidy l.text with
            ⟨hIdles, hTidy'⟩
          exact Idles.pure
            ⟨.aside (by rw [hKind]; rfl) hIdles, hTidy'⟩
      | _ =>
          rw [hKind] at hContent
          cases hContent

end Builder

end BranchingStory

------------------------------------------------------------
-- Contents In Shape
------------------------------------------------------------

namespace BranchingStory

open scoped List

/- Numbers that are handed out later change nothing. -/
theorem LeavesAreSound.later
    {ls : List (Nat × Leaf)}
    {size n n' : Nat}
    (hSound : LeavesAreSound ls size n)
    (hLater : n ≤ n') :
    LeavesAreSound ls size n' :=
  { hSound with
    most := fun x hMem =>
      Nat.lt_of_lt_of_le (hSound.most x hMem) hLater }

namespace Builder

/-
  Whether all contents have numbers of their own and are in
  shape, and so are their alternatives.
-/
structure IsAssembled
    (b : Builder)
    (numbered : Nat) : Prop where
  leaves : LeavesAreSound (b.bodies.flatMap Body.leaves)
    b.nextId numbered
  finished : ∀ body ∈ b.finished, TreeFits 0 body.items
  body : ∀ body, b.body? = some body → body.spine.Fits

variable {b b' : Builder}
variable {n : Nat}

/- Nothing built yet is in shape. -/
theorem isAssembled_empty
    (n : Nat) :
    Builder.empty.IsAssembled n where
  leaves := LeavesAreSound.nil.later (Nat.zero_le n)
  finished := by
    intro body hMem
    cases hMem
  body := by
    intro body hBody
    cases hBody

namespace IsAssembled

/- All contents are in shape, the one at hand too. -/
theorem fits
    (hAll : b.IsAssembled n) :
    ∀ body ∈ b.bodies, TreeFits 0 body.items := by
  intro body hMem
  rcases List.mem_append.mp hMem with hMem | hMem
  · exact hAll.finished body hMem
  · cases hBody : b.body? with
    | none =>
        rw [hBody] at hMem
        cases hMem
    | some open' =>
        rw [hBody] at hMem
        change body ∈ [open'.toBody] at hMem
        rw [List.mem_singleton] at hMem
        rw [hMem]
        exact (hAll.body open' hBody).finish

/- The numbers are those below the size, each once. -/
theorem ids
    (hAll : b.IsAssembled n) :
    b.bodies.flatMap Body.ids ~ List.range b.nextId := by
  have hIds := hAll.leaves.ids
  rw [List.map_flatMap] at hIds
  simpa only [Body.leaves_fst] using hIds

/- The nodes of what is built are linked as they should be. -/
theorem arena
    (hAll : b.IsAssembled n) :
    ArenaIsSound b.arena :=
  arenaIsSound_of_fits hAll.ids hAll.fits hAll.leaves.nodup

end IsAssembled

/- Contents that stay as they are stay in shape. -/
theorem Idles.isAssembled
    (hIdles : b.Idles b')
    (hAll : b.IsAssembled n) :
    b'.IsAssembled n := by
  constructor
  · rw [bodies, hIdles.finished, hIdles.body, hIdles.next]
    exact hAll.leaves
  · rw [hIdles.finished]
    exact hAll.finished
  · rw [hIdles.body]
    exact hAll.body

/- So does the content at hand when it is finished. -/
theorem Closes.isAssembled
    (hCloses : b.Closes b')
    (hAll : b.IsAssembled n) :
    b'.IsAssembled n := by
  have hBodies : b'.bodies = b'.finished := by
    rw [bodies, hCloses.body]
    exact List.append_nil _
  constructor
  · rw [hBodies, hCloses.next]
    exact hAll.leaves.perm (hCloses.finished.flatMap_right _)
  · intro body hMem
    exact hAll.fits body (hCloses.finished.mem_iff.mp hMem)
  · intro body hBody
    rw [hCloses.body] at hBody
    cases hBody

/- So do they when a new one is begun. -/
theorem Opens.isAssembled
    (hOpens : b.Opens b')
    (hAll : b.IsAssembled n) :
    b'.IsAssembled n := by
  rcases hOpens.body with ⟨name, line, hBody⟩
  have hBodies :
      b'.bodies.flatMap Body.leaves =
        b'.finished.flatMap Body.leaves ++
          [(b.nextId, .block)] := by
    rw [bodies, hBody, List.flatMap_append]
    simp [openBodies, OpenBody.toBody, Spine.finish,
      Spine.closeTo, Spine.empty, Spine.closeRungs]
  constructor
  · rw [hBodies, hOpens.next]
    exact (hAll.leaves.perm
      (hOpens.finished.flatMap_right _)).add_block
  · intro body hMem
    exact hAll.fits body (hOpens.finished.mem_iff.mp hMem)
  · intro body hSome
    rw [hBody] at hSome
    cases hSome
    exact Spine.fits_empty

/- So do they when a line is written to the one at hand. -/
theorem Writes.isAssembled
    {kind : LineKind}
    {ns : List (Nat × Leaf)}
    {d d' : Draft}
    {m : Nat}
    (hWrites : b.Writes b' kind ns)
    (hNested : kind.IsNested)
    (hNumbers : d.Numbers d' (alternativesOf ns) m)
    (hPlain : ∀ p ∈ ns, ∀ e ∈ p.2.expressions, e.IsPlain)
    (hAll : b.IsAssembled d.numbered) :
    b'.IsAssembled d'.numbered := by
  rcases hWrites with
    ⟨hFinished, hNext, body, spine, hBody, hBody', hGrows⟩
  rcases hGrows.leaves hNested.pos with ⟨hLeaves, hIds⟩
  have hOpen (s : Spine) :
      (openBodies (some { body with spine := s })).flatMap
          Body.leaves ~
        (body.id, .block) :: s.leaves := by
    simp only [openBodies, Option.elim, OpenBody.toBody,
      List.flatMap_cons, List.flatMap_nil, List.append_nil,
      Body.leaves_eq]
    exact s.leaves_finish.cons _
  constructor
  · rw [hNext]
    apply (hAll.leaves.add hIds hNumbers hPlain).perm
    rw [bodies, bodies, hFinished, hBody, hBody',
      List.flatMap_append, List.flatMap_append,
      List.append_assoc]
    apply List.Perm.append_left _
    apply (hOpen spine).trans
    exact (hLeaves.cons _).trans
      ((hOpen body.spine).symm.append_right ns)
  · rw [hFinished]
    exact hAll.finished
  · intro body' hSome
    rw [hBody'] at hSome
    cases hSome
    exact hGrows.fits hNested (hAll.body body hBody)

/- Every line leaves what is built in shape. -/
theorem Turns.isAssembled
    {l : ScriptLine}
    {ns : List (Nat × Leaf)}
    {d d' : Draft}
    {m : Nat}
    (hTurns : b.Turns l b' ns)
    (hNested : l.kind.IsNested)
    (hNumbers : d.Numbers d' (alternativesOf ns) m)
    (hPlain : ∀ p ∈ ns, ∀ e ∈ p.2.expressions, e.IsPlain)
    (hAll : b.IsAssembled d.numbered) :
    b'.IsAssembled d'.numbered := by
  have hLater (hAll' : b'.IsAssembled d.numbered) :
      b'.IsAssembled d'.numbered :=
    { hAll' with
      leaves := hAll'.leaves.later hNumbers.precedes.numbered }
  cases hTurns with
  | aside _ hIdles => exact hLater (hIdles.isAssembled hAll)
  | lost _ _ hIdles => exact hLater (hIdles.isAssembled hAll)
  | knot _ hCloses => exact hLater (hCloses.isAssembled hAll)
  | stitch _ _ hOpens => exact hLater (hOpens.isAssembled hAll)
  | content _ hReadies hWrites =>
      apply hWrites.isAssembled hNested hNumbers hPlain
      rcases hReadies with ⟨_, hIdles⟩ | ⟨_, hOpens⟩
      · exact hIdles.isAssembled hAll
      · exact hOpens.isAssembled hAll

end Builder

end BranchingStory

------------------------------------------------------------
-- Frames From Line To Line
------------------------------------------------------------

namespace BranchingStory

/-
  What a line makes of the open frames, if the next part gets
  the given number.  A line of content begins a content if none
  is at hand; a header of a stitch does in any knot.
-/
def framesAfter
    (kind : LineKind)
    (inKnot : Bool)
    (n : Nat)
    (fs : List OpenFrame) : Option (List OpenFrame) :=
  match kind with
  | .declaration _ => some fs
  | .tag => some fs
  | .knot => some []
  | .stitch => if inKnot then some [⟨0, n, none⟩] else some fs
  | kind =>
      match fs with
      | [] => framesWithin kind (n + 1) [⟨0, n, none⟩]
      | fs => framesWithin kind n fs

/- A line of content is about the content at hand. -/
theorem framesAfter_of_isContent
    {kind : LineKind}
    (hKind : kind.isContent = true)
    (inKnot : Bool)
    (n : Nat)
    (fs : List OpenFrame) :
    framesAfter kind inKnot n fs =
      match fs with
      | [] => framesWithin kind (n + 1) [⟨0, n, none⟩]
      | fs => framesWithin kind n fs := by
  cases kind <;> first | rfl | cases hKind

/- The last frame of a content is never popped. -/
theorem Spine.exists_framesWithin
    {kind : LineKind}
    (hNested : kind.IsNested)
    (id n : Nat)
    (rs : List Rung) :
    ∃ fs, framesWithin kind n (framesOver id rs none) =
      some fs := by
  rcases framesOver_eq id rs with ⟨block, fs, hFrames⟩
  have hPop {depth : Nat} (hDepth : 0 < depth) :
      ∃ f fs, popTo (nestedDepth depth (framesOver id rs none))
        (framesOver id rs none) = some (f :: fs) := by
    have hPositive :
        0 < nestedDepth depth (framesOver id rs none) := by
      rw [hFrames, nestedDepth]
      omega
    rcases popTo_framesOver hPositive id rs [] none with
      ⟨set, hPopped⟩
    rcases framesOver_eq id (closeRungs (nestedDepth depth
        (framesOver id rs none) - 1) rs []).rungs with
      ⟨block', fs', hLeft⟩
    rw [hLeft] at hPopped
    exact ⟨_, _, hPopped⟩
  cases kind with
  | choice depth sticky =>
      rcases hPop hNested with ⟨⟨d, block, set⟩, fs, hPopped⟩
      rw [framesWithin, pushBranch, hPopped]
      cases set with
      | none => exact ⟨_, rfl⟩
      | some id => exact ⟨_, rfl⟩
  | gather depth =>
      rcases hPop hNested with ⟨f, fs, hPopped⟩
      rw [framesWithin, gatherFrames, hPopped]
      exact ⟨_, rfl⟩
  | _ => exact ⟨_, rfl⟩

namespace Builder

variable {b b' : Builder}

/- The depths of the open frames are 0, 1 and so on. -/
theorem depths_frames
    (b : Builder) :
    b.frames.map OpenFrame.depth =
      (List.range b.frames.length).reverse := by
  rw [frames]
  cases b.body? with
  | none => rfl
  | some body =>
      have hDepths :=
        Spine.depths_framesOver body.id body.spine.rungs none
      have hLength := congrArg List.length hDepths
      rw [List.length_map, List.length_reverse,
        List.length_range] at hLength
      change (Spine.framesOver _ _ none).map _ =
        (List.range (Spine.framesOver _ _ none).length).reverse
      rw [hLength, hDepths]

theorem frames_of_body
    {body : OpenBody}
    (hBody : b.body? = some body) :
    b.frames =
      Spine.framesOver body.id body.spine.rungs none := by
  rw [frames, hBody]
  rfl

/- There are frames where there is a content at hand. -/
theorem frames_ne_nil
    {body : OpenBody}
    (hBody : b.body? = some body) :
    b.frames ≠ [] := by
  rcases Spine.framesOver_eq body.id body.spine.rungs with
    ⟨block, fs, hFrames⟩
  rw [frames_of_body hBody, hFrames]
  exact List.cons_ne_nil _ _

/- A line that is nested pops no last frame. -/
theorem exists_framesAfter
    (b : Builder)
    {kind : LineKind}
    (hNested : kind.IsNested) :
    ∃ fs, framesAfter kind b.knot.isSome b.nextId b.frames =
      some fs := by
  cases hKind : kind.isContent with
  | true =>
      rw [framesAfter_of_isContent hKind]
      cases hBody : b.body? with
      | none =>
          rw [frames, hBody]
          exact Spine.exists_framesWithin hNested b.nextId _ []
      | some body =>
          have hSome := frames_ne_nil hBody
          rw [frames_of_body hBody] at hSome ⊢
          split
          · next hNil => exact absurd hNil hSome
          · exact Spine.exists_framesWithin hNested _ _ _
  | false =>
      cases kind with
      | stitch =>
          rw [framesAfter]
          split <;> exact ⟨_, rfl⟩
      | knot => exact ⟨_, rfl⟩
      | tag => exact ⟨_, rfl⟩
      | declaration constant => exact ⟨_, rfl⟩
      | text => cases hKind
      | divert => cases hKind
      | assignment => cases hKind
      | choice depth sticky => cases hKind
      | gather depth => cases hKind

theorem Idles.frames
    (hIdles : b.Idles b') :
    b'.frames = b.frames := by
  rw [Builder.frames, hIdles.body]
  rfl

theorem Closes.frames
    (hCloses : b.Closes b') :
    b'.frames = [] := by
  rw [Builder.frames, hCloses.body]
  rfl

theorem Opens.frames
    (hOpens : b.Opens b') :
    b'.frames = [⟨0, b.nextId, none⟩] := by
  rcases hOpens.body with ⟨name, line, hBody⟩
  rw [frames_of_body hBody]
  rfl

/- The open frames become what the line makes of them. -/
theorem Turns.frames
    {l : ScriptLine}
    {ns : List (Nat × Leaf)}
    (hTurns : b.Turns l b' ns)
    (hNested : l.kind.IsNested) :
    framesAfter l.kind b.knot.isSome b.nextId b.frames =
      some b'.frames := by
  cases hTurns with
  | aside hKind hIdles =>
      rw [hIdles.frames]
      cases hCase : l.kind <;> rw [hCase] at hKind <;>
        first | rfl | cases hKind
  | lost hKind hKnot hIdles =>
      rw [hIdles.frames, hKind, hKnot]
      rfl
  | knot hKind hCloses =>
      rw [hKind, hCloses.frames]
      rfl
  | stitch hKind hKnot hOpens =>
      rw [hKind, hOpens.frames,
        Option.isSome_iff_ne_none.mpr hKnot]
      rfl
  | content hKind hReadies hWrites =>
      rcases hWrites with
        ⟨_, _, body, spine, hBody, hBody', hGrows⟩
      have hWithin := hGrows.frames hNested body.id
      rw [framesAfter_of_isContent hKind,
        frames_of_body hBody']
      rcases hReadies with ⟨⟨old, hOld⟩, hIdles⟩ |
        ⟨hNone, hOpens⟩
      · have hSome := frames_ne_nil hOld
        rw [← hIdles.frames, frames_of_body hBody] at hSome ⊢
        rw [hIdles.next] at hWithin
        split
        · next hNil => exact absurd hNil hSome
        · exact hWithin
      · have hFresh := hOpens.frames
        rw [frames_of_body hBody] at hFresh
        rw [hFresh, hOpens.next] at hWithin
        rw [Builder.frames, hNone]
        exact hWithin

end Builder

end BranchingStory

------------------------------------------------------------
-- Building
------------------------------------------------------------

namespace BranchingStory

open Reading
open scoped List

/- All lines together leave what is built in shape. -/
theorem foldlM_add_assembles
    {ls : List ScriptLine}
    (hNested : ∀ l ∈ ls, l.kind.IsNested)
    {b b' : Builder}
    {d d' : Draft}
    (hTidy : b.IsTidy)
    (hAll : b.IsAssembled d.numbered)
    (hRun :
      (ls.foldlM Builder.add b).run d = .ok (b', d')) :
    b'.IsTidy ∧ b'.IsAssembled d'.numbered := by
  induction ls generalizing b d with
  | nil =>
      rcases run_pure_ok.mp hRun with ⟨rfl, rfl⟩
      exact ⟨hTidy, hAll⟩
  | cons l ls ih =>
      rw [List.forall_mem_cons] at hNested
      rcases run_bind_ok.mp hRun with ⟨b₁, d₁, hLine, hRest⟩
      rcases Builder.add_turns hTidy l d b₁ d₁ hLine with
        ⟨hTidy₁, ns, n, hTurns, hNumbers, hPlain⟩
      exact ih hNested.2 hTidy₁
        (hTurns.isAssembled hNested.1 hNumbers hPlain hAll)
        hRest

/-
  What the building of an outline comes to, whatever issues are
  reported, if choices and gathers are nested.  It ends with a
  result unless the text of a line has more digits than a number
  may have.  After every line the nodes so far are linked as
  they should be, and the depths of the open frames run down to
  zero; the next line makes of the frames what pushing and
  popping them does, and the last one is never popped.  The
  nodes of the outline are those that the lines have made.
-/
theorem arenas_are_sound
    (ls : List ScriptLine)
    (hNested : ∀ l ∈ ls, l.kind.IsNested)
    (d : Draft) :
    ((∀ l ∈ ls, ¬ HasLongNumber l.text.toList) →
      ∃ r, (buildOutline ls).run d = .ok r) ∧
    (∀ before after b d₁, ls = before ++ after →
      (before.foldlM Builder.add .empty).run d =
          .ok (b, d₁) →
        ArenaIsSound b.arena ∧
        b.frames.map OpenFrame.depth =
          (List.range b.frames.length).reverse ∧
        ∀ l rest, after = l :: rest →
          ∃ fs, framesAfter l.kind b.knot.isSome b.nextId
              b.frames = some fs ∧
            ∀ b' d₂, (b.add l).run d₁ = .ok (b', d₂) →
              b'.frames = fs) ∧
    ∀ o? d', (buildOutline ls).run d = .ok (o?, d') →
      ∃ b d₁,
        (ls.foldlM Builder.add .empty).run d =
            .ok (b, d₁) ∧
          ∀ o, o? = some o → o.nodes = b.arena := by
  refine ⟨?_, ?_, ?_⟩
  · intro hShort
    cases hRun : (buildOutline ls).run d with
    | ok r => exact ⟨r, rfl⟩
    | error n =>
        rcases buildOutline_givesUp ls d n hRun with
          ⟨l, hMem, hLong⟩
        exact absurd hLong (hShort l hMem)
  · intro before after b d₁ hSplit hRun
    subst hSplit
    rw [List.forall_mem_append] at hNested
    rcases
        foldlM_add_assembles hNested.1 Builder.isTidy_empty
          (Builder.isAssembled_empty _) hRun with
      ⟨hTidy, hAll⟩
    refine ⟨hAll.arena, b.depths_frames, ?_⟩
    rintro l rest rfl
    have hLine := hNested.2 l List.mem_cons_self
    rcases b.exists_framesAfter hLine with ⟨fs, hAfter⟩
    refine ⟨fs, hAfter, ?_⟩
    intro b' d₂ hAdd
    rcases Builder.add_turns hTidy l d₁ b' d₂ hAdd with
      ⟨_, ns, n, hTurns, _⟩
    have hSame := hTurns.frames hLine
    rw [hAfter] at hSame
    exact (Option.some.inj hSame).symm
  · intro o? d' hRun
    rcases run_bind_ok.mp hRun with ⟨b, d₁, hLines, hRun⟩
    rcases run_bind_ok.mp hRun with ⟨b₂, d₂, hClose, hRun⟩
    rcases
        foldlM_add_assembles hNested Builder.isTidy_empty
          (Builder.isAssembled_empty _) hLines with
      ⟨hTidy, hAll⟩
    rcases
        (Builder.closeKnot_closes hTidy d₁ b₂ d₂ hClose).2.2
      with ⟨hCloses, hNone⟩
    refine ⟨b, d₁, hLines, ?_⟩
    intro o hSome
    cases hStart : b₂.start? with
    | none =>
        rw [hStart] at hRun
        rcases run_bind_ok.mp hRun with ⟨_, _, _, hRun⟩
        rcases run_pure_ok.mp hRun with ⟨rfl, _⟩
        cases hSome
    | some start =>
        rw [hStart] at hRun
        rcases run_pure_ok.mp hRun with ⟨rfl, _⟩
        cases hSome
        have hBodies :
            (b₂.knots.values.flatMap fun k =>
                k.stitches.values).map Stitch.body ++
                b₂.detached = b₂.finished := by
          rw [Builder.finished, hNone, List.map_flatMap]
          exact (List.append_nil _).symm
        rw [Outline.nodes_eq, Builder.arena]
        refine (arenaOf_eq_of_perm hAll.ids ?_).symm
        change b.bodies ~ (b₂.knots.values.flatMap fun k =>
          k.stitches.values).map Stitch.body ++ b₂.detached
        rw [hBodies]
        exact hCloses.finished.symm

/- A set of choices within a branch, and a gather after it. -/
theorem arenas_are_sound_nested :
    let ls : List ScriptLine :=
      [⟨.choice 1 false, 1, "a"⟩, ⟨.choice 2 false, 2, "b"⟩,
        ⟨.gather 1, 3, "c"⟩]
    (∀ l ∈ ls, l.kind.IsNested) ∧
      ∃ o d', (buildOutline ls).run ⟨[], 0⟩ =
          .ok (some o, d') ∧
        o.numberedNodes.length = 8 ∧ ArenaIsSound o.nodes := by
  intro ls
  have hNested : ∀ l ∈ ls, l.kind.IsNested := by
    simp [ls, LineKind.IsNested]
  have hCheck :
      ((buildOutline ls).run ⟨[], 0⟩).toOption.map
          (fun r => r.1.map (·.numberedNodes.length)) =
        some (some 8) := by
    decide +kernel
  rcases arenas_are_sound ls hNested ⟨[], 0⟩ with
    ⟨_, hLines, hNodes⟩
  refine ⟨hNested, ?_⟩
  rcases hRun : (buildOutline ls).run ⟨[], 0⟩ with
    n | ⟨_ | o, d'⟩
  · rw [hRun] at hCheck
    cases hCheck
  · rw [hRun] at hCheck
    cases hCheck
  · rw [hRun] at hCheck
    rcases hNodes _ _ hRun with ⟨b, d₁, hBuilt, hSame⟩
    refine ⟨o, d', rfl,
      Option.some.inj (Option.some.inj hCheck), ?_⟩
    rw [hSame o rfl]
    exact (hLines ls [] b d₁ (by simp) hBuilt).1

/- One digit too many ends the building without a result. -/
theorem long_numbers_end_building :
    let text :=
      String.ofList ('n' :: '=' :: List.replicate 4301 '1')
    (buildOutline [⟨.assignment, 1, text⟩]).run ⟨[], 0⟩ =
      .error ⟨4301⟩ := by
  generalize hDigits : List.replicate 4301 '1' = ds
  intro text
  have hCons : ds = '1' :: List.replicate 4300 '1' := by
    rw [← hDigits, List.replicate_succ]
  have hText : text.toList = 'n' :: '=' :: ds :=
    String.toList_ofList
  have hTrim : trim ('n' :: '=' :: ds) = 'n' :: '=' :: ds := by
    refine trim_of_ends (c := 'n') (d := '1') rfl (by decide)
      ?_ (by decide)
    rw [← hDigits, List.replicate_succ', ← List.cons_append,
      ← List.cons_append, List.getLast?_concat]
  have hExpr : (readExpr? 1 ds).run ⟨[], 0⟩ = .error ⟨4301⟩ := by
    have hRead : Expr.ofText 1 ds = .error (.longNumber 4301) := by
      rw [(ofText_of_digits 1 ?_ ?_).2, ← hDigits,
        List.length_replicate, if_pos (by decide)]
      · intro c hMem
        rw [← hDigits] at hMem
        rw [List.eq_of_mem_replicate hMem]
        decide
      · rw [hCons]
        exact List.cons_ne_nil _ _
    rw [readExpr?, hRead]
    rfl
  have hRead :
      (readAssignment 1 text.toList).run ⟨[], 0⟩ =
        .error ⟨4301⟩ := by
    rw [readAssignment, hText, hTrim, hCons]
    rw [hCons] at hExpr
    exact run_bind_error.mpr (Or.inl hExpr)
  have hLine :
      (Builder.empty.add ⟨.assignment, 1, text⟩).run ⟨[], 0⟩ =
        .error ⟨4301⟩ :=
    run_bind_error.mpr (Or.inl hRead)
  exact run_bind_error.mpr
    (Or.inl (run_bind_error.mpr (Or.inl hLine)))

end BranchingStory
