import BranchingStory.Proofs.Building
import BranchingStory.Proofs.Entries
import Mathlib.Data.List.TakeWhile

/-
  This file shows that building an outline neither loses nor
  repeats nor moves content.  The headers divide the lines of
  a script into sections, one for each knot and within it one
  for each stitch, and the content of a stitch is what the
  content lines of its section are read as, one by one.

  Key definitions include:
    * `sections`
    * `ScriptLine.IsReadAs`
    * `KnotFollows`
    * `Builder.Follows`

  Key theorems include:
    * `sections_snoc_line`
    * `Builder.putBody_follows`
    * `Builder.add_takes`
    * `outline_follows_lines`
-/

------------------------------------------------------------
-- Kinds Of Lines
------------------------------------------------------------

namespace BranchingStory

namespace ScriptLine

/- Whether a line is the header of a knot. -/
def isKnot
    (l : ScriptLine) : Bool :=
  l.kind = .knot

/- Whether a line is the header of a stitch. -/
def isStitch
    (l : ScriptLine) : Bool :=
  l.kind = .stitch

/- Whether a line belongs to the content of a stitch. -/
def isContent
    (l : ScriptLine) : Bool :=
  match l.kind with
  | .text | .divert | .assignment => true
  | .choice _ _ | .gather _ => true
  | _ => false

/- A content line is no header. -/
theorem not_header_of_isContent
    {l : ScriptLine}
    (hContent : l.isContent = true) :
    l.isKnot = false ∧ l.isStitch = false := by
  rcases l with ⟨kind, line, text⟩
  cases kind <;>
    simp_all [isContent, isKnot, isStitch]

end ScriptLine

end BranchingStory

------------------------------------------------------------
-- Sections
------------------------------------------------------------

namespace BranchingStory

/- A name and the lines that stand under it. -/
structure Section where
  name : String
  lines : List ScriptLine

/- The content lines of a section. -/
def Section.content
    (s : Section) : List ScriptLine :=
  s.lines.filter ScriptLine.isContent

/- Each header with the lines up to the next header. -/
def headedSections
    (isHeader : ScriptLine → Bool) :
    List ScriptLine → List Section
  | [] => []
  | l :: ls =>
      if isHeader l then
        ⟨l.text, ls.takeWhile fun l => !isHeader l⟩ ::
          headedSections isHeader ls
      else headedSections isHeader ls

/-
  The sections of lines.  What stands ahead of all headers is
  the root section if there is content in it, and otherwise no
  section.
-/
def sections
    (isHeader : ScriptLine → Bool)
    (ls : List ScriptLine) : List Section :=
  let ahead := ls.takeWhile fun l => !isHeader l
  if ahead.any ScriptLine.isContent then
    ⟨rootName, ahead⟩ :: headedSections isHeader ls
  else headedSections isHeader ls

variable {isHeader : ScriptLine → Bool}
variable {ls : List ScriptLine}
variable {l : ScriptLine}

/- There are no headed sections if there are no headers. -/
theorem headedSections_eq_nil_iff :
    headedSections isHeader ls = [] ↔
      ∀ x ∈ ls, isHeader x = false := by
  induction ls with
  | nil => simp [headedSections]
  | cons x ls ih =>
      rw [headedSections, List.forall_mem_cons]
      by_cases hHeader : isHeader x = true
      · simp [hHeader]
      · rw [Bool.not_eq_true] at hHeader
        simp [hHeader, ih]

/- Without headers all lines stand ahead of them. -/
theorem takeWhile_of_no_header
    (hNone : ∀ x ∈ ls, isHeader x = false) :
    (ls.takeWhile fun l => !isHeader l) = ls := by
  rw [List.takeWhile_eq_self_iff]
  intro x hMem
  rw [hNone x hMem]
  rfl

/- After a header no line stands ahead of all headers. -/
theorem takeWhile_snoc_of_header
    (hHeader : ¬ ∀ x ∈ ls, isHeader x = false)
    (l : ScriptLine) :
    ((ls ++ [l]).takeWhile fun l => !isHeader l) =
      ls.takeWhile fun l => !isHeader l := by
  rw [List.takeWhile_append, if_neg]
  intro hLength
  apply hHeader
  have hAll := (List.takeWhile_prefix _).eq_of_length hLength
  rw [List.takeWhile_eq_self_iff] at hAll
  intro x hMem
  simpa using hAll x hMem

/- A header begins a section and ends what stands ahead. -/
theorem takeWhile_snoc_header
    (hHeader : isHeader l = true) :
    ((ls ++ [l]).takeWhile fun l => !isHeader l) =
      ls.takeWhile fun l => !isHeader l := by
  by_cases hNone : ∀ x ∈ ls, isHeader x = false
  · rw [List.takeWhile_append, takeWhile_of_no_header hNone]
    simp [hHeader]
  · exact takeWhile_snoc_of_header hNone l

/- A header at the end begins a section without lines. -/
theorem headedSections_snoc_header
    (hHeader : isHeader l = true) :
    headedSections isHeader (ls ++ [l]) =
      headedSections isHeader ls ++ [⟨l.text, []⟩] := by
  induction ls with
  | nil => simp [headedSections, hHeader]
  | cons x ls ih =>
      rw [List.cons_append, headedSections, headedSections,
        takeWhile_snoc_header hHeader, ih]
      split <;> rfl

/- Another line at the end belongs to the last section. -/
theorem headedSections_snoc_line
    (hLine : isHeader l = false)
    {ss : List Section}
    {s : Section}
    (hLast : headedSections isHeader ls = ss ++ [s]) :
    headedSections isHeader (ls ++ [l]) =
      ss ++ [⟨s.name, s.lines ++ [l]⟩] := by
  induction ls generalizing ss with
  | nil => simp [headedSections] at hLast
  | cons x ls ih =>
      rw [List.cons_append, headedSections]
      rw [headedSections] at hLast
      by_cases hHeader : isHeader x = true
      · rw [if_pos hHeader] at hLast ⊢
        by_cases hNone : ∀ y ∈ ls, isHeader y = false
        · -- The header is the last one.
          have hAll : ∀ y ∈ ls ++ [l], isHeader y = false :=
            List.forall_mem_append.mpr
              ⟨hNone, List.forall_mem_singleton.mpr hLine⟩
          rw [headedSections_eq_nil_iff.mpr hNone,
            takeWhile_of_no_header hNone] at hLast
          rw [headedSections_eq_nil_iff.mpr hAll,
            takeWhile_of_no_header hAll]
          cases ss with
          | nil =>
              cases hLast
              rfl
          | cons s' ss => simp at hLast
        · rw [takeWhile_snoc_of_header hNone]
          cases ss with
          | nil =>
              have hRest := (List.cons.inj hLast).2
              rw [headedSections_eq_nil_iff] at hRest
              exact absurd hRest hNone
          | cons s' ss =>
              rcases List.cons.inj hLast with ⟨hFirst, hRest⟩
              rw [ih hRest, hFirst]
              rfl
      · rw [if_neg hHeader] at hLast ⊢
        exact ih hLast

/- Lines without a section have neither header nor content. -/
theorem sections_eq_nil_iff :
    sections isHeader ls = [] ↔
      (∀ x ∈ ls, isHeader x = false) ∧
        ∀ x ∈ ls, x.isContent = false := by
  rw [sections]
  by_cases hNone : ∀ x ∈ ls, isHeader x = false
  · rw [headedSections_eq_nil_iff.mpr hNone]
    simp only [takeWhile_of_no_header hNone]
    by_cases hContent : ls.any ScriptLine.isContent = true
    · rw [if_pos hContent]
      rw [List.any_eq_true] at hContent
      rcases hContent with ⟨x, hMem, hContent⟩
      constructor
      · intro hNil
        cases hNil
      · rintro ⟨_, hIdle⟩
        rw [hIdle x hMem] at hContent
        cases hContent
    · rw [if_neg hContent]
      rw [List.any_eq_true] at hContent
      simp only [not_exists, not_and, Bool.not_eq_true]
        at hContent
      exact ⟨fun _ => ⟨hNone, hContent⟩, fun _ => rfl⟩
  · have hSome : headedSections isHeader ls ≠ [] :=
      fun hNil => hNone (headedSections_eq_nil_iff.mp hNil)
    simp only [hNone, false_and, iff_false]
    split
    · exact List.cons_ne_nil _ _
    · exact hSome

/- A header begins a section of its own. -/
theorem sections_snoc_header
    (hHeader : isHeader l = true) :
    sections isHeader (ls ++ [l]) =
      sections isHeader ls ++ [⟨l.text, []⟩] := by
  simp only [sections, takeWhile_snoc_header hHeader,
    headedSections_snoc_header hHeader]
  split <;> rfl

/- A line that is no header belongs to the last section. -/
theorem sections_snoc_line
    (hLine : isHeader l = false)
    {ss : List Section}
    {s : Section}
    (hLast : sections isHeader ls = ss ++ [s]) :
    sections isHeader (ls ++ [l]) =
      ss ++ [⟨s.name, s.lines ++ [l]⟩] := by
  simp only [sections] at hLast ⊢
  by_cases hNone : ∀ x ∈ ls, isHeader x = false
  · -- There is only the root section.
    have hAll : ∀ y ∈ ls ++ [l], isHeader y = false :=
      List.forall_mem_append.mpr
        ⟨hNone, List.forall_mem_singleton.mpr hLine⟩
    rw [headedSections_eq_nil_iff.mpr hNone,
      takeWhile_of_no_header hNone] at hLast
    rw [headedSections_eq_nil_iff.mpr hAll,
      takeWhile_of_no_header hAll, List.any_append]
    split at hLast
    · next hContent =>
        rw [hContent]
        cases ss with
        | nil =>
            cases hLast
            rfl
        | cons s' ss => simp at hLast
    · simp at hLast
  · rw [takeWhile_snoc_of_header hNone]
    split at hLast
    · next hContent =>
        rw [if_pos hContent]
        cases ss with
        | nil =>
            have hRest := (List.cons.inj hLast).2
            rw [headedSections_eq_nil_iff] at hRest
            exact absurd hRest hNone
        | cons s' ss =>
            rcases List.cons.inj hLast with ⟨hFirst, hRest⟩
            rw [headedSections_snoc_line hLine hRest, hFirst]
            rfl
    · next hContent =>
        rw [if_neg hContent]
        exact headedSections_snoc_line hLine hLast

/- The first content ahead of all headers opens the root. -/
theorem sections_snoc_first
    (hLine : isHeader l = false)
    (hContent : l.isContent = true)
    (hNil : sections isHeader ls = []) :
    sections isHeader (ls ++ [l]) =
      [⟨rootName, ls ++ [l]⟩] := by
  have hNone := (sections_eq_nil_iff.mp hNil).1
  have hAll : ∀ y ∈ ls ++ [l], isHeader y = false :=
    List.forall_mem_append.mpr
      ⟨hNone, List.forall_mem_singleton.mpr hLine⟩
  simp [sections, takeWhile_of_no_header hAll,
    headedSections_eq_nil_iff.mpr hAll, hContent]

/- Other lines ahead of all headers open nothing. -/
theorem sections_snoc_idle
    (hLine : isHeader l = false)
    (hIdle : l.isContent = false)
    (hNil : sections isHeader ls = []) :
    sections isHeader (ls ++ [l]) = [] := by
  rw [sections_eq_nil_iff] at hNil ⊢
  constructor
  · exact List.forall_mem_append.mpr
      ⟨hNil.1, List.forall_mem_singleton.mpr hLine⟩
  · exact List.forall_mem_append.mpr
      ⟨hNil.2, List.forall_mem_singleton.mpr hIdle⟩

end BranchingStory

------------------------------------------------------------
-- Lines And Entries
------------------------------------------------------------

namespace BranchingStory

/-
  Whether an entry is what a content line is read as, without
  an error.  Tags that were waiting stand ahead of its own.
-/
inductive ScriptLine.IsReadAs : ScriptLine → Entry → Prop where
  | text
      {line : Nat} {text : String} {d d' : Draft}
      {content : ContentLine} (tags : List String)
      (hClean : d'.IsClean)
      (hRead :
        (readLine line text.toList).run d =
          .ok (content, d')) :
      IsReadAs ⟨.text, line, text⟩
        (.line (content.withTags tags))
  | divert
      {line : Nat} {text : String} {d d' : Draft}
      {content : ContentLine} (tags : List String)
      (hClean : d'.IsClean)
      (hRead :
        (readLine line text.toList).run d =
          .ok (content, d')) :
      IsReadAs ⟨.divert, line, text⟩
        (.line (content.withTags tags))
  | assignment
      {line : Nat} {text : String} {d d' : Draft}
      {name : String} {value : Expr}
      (hClean : d'.IsClean)
      (hRead :
        (readAssignment line text.toList).run d =
          .ok (some (name, value), d')) :
      IsReadAs ⟨.assignment, line, text⟩
        (.assign name value line)
  | bareGather
      (line depth : Nat) :
      IsReadAs ⟨.gather depth, line, ""⟩
        (.gather depth none)
  | gather
      {line depth : Nat} {text : String} {d d' : Draft}
      {content : ContentLine} (tags : List String)
      (hText : text.isEmpty = false)
      (hClean : d'.IsClean)
      (hRead :
        (readLine line text.toList).run d =
          .ok (content, d')) :
      IsReadAs ⟨.gather depth, line, text⟩
        (.gather depth (some (content.withTags tags)))
  | choice
      {line depth : Nat} {sticky : Bool} {text : String}
      {d d' : Draft} {choice : Choice} (tags : List String)
      (hClean : d'.IsClean)
      (hRead :
        (readChoice line sticky text.toList).run d =
          .ok (choice, d')) :
      IsReadAs ⟨.choice depth sticky, line, text⟩
        (.choice depth (choice.withTags tags))

/-
  Whether a stitch has the name of a section, and its content
  is what the content lines of the section are read as.
-/
def StitchFollows
    (s : Section)
    (e : String × Stitch) : Prop :=
  e.1 = s.name ∧ e.2.name = s.name ∧
    List.Forall₂ ScriptLine.IsReadAs s.content
      (itemEntries e.2.body.items)

/-
  Whether a knot has the name of a section, and its stitches
  follow the sections of the stitches in it.
-/
def KnotFollows
    (s : Section)
    (e : String × Knot) : Prop :=
  e.1 = s.name ∧ e.2.name = s.name ∧
    List.Forall₂ StitchFollows
      (sections ScriptLine.isStitch s.lines)
      e.2.stitches.entries

end BranchingStory

------------------------------------------------------------
-- Builders That Follow Lines
------------------------------------------------------------

namespace BranchingStory

/-
  Whether the knot that is being written follows lines: its
  finished stitches follow all sections but the last, and the
  content at hand follows the last section.
-/
def OpenKnot.Follows
    (ls : List ScriptLine)
    (k : OpenKnot) : Prop :=
  match k.current with
  | none =>
      sections ScriptLine.isStitch ls = [] ∧
        k.stitches.entries = []
  | some b =>
      ∃ ss s, sections ScriptLine.isStitch ls = ss ++ [s] ∧
        b.name = some s.name ∧
        List.Forall₂ StitchFollows ss k.stitches.entries ∧
        List.Forall₂ ScriptLine.IsReadAs s.content
          b.spine.entries

/-
  Whether what has been built so far follows lines: the
  finished knots follow all sections but the last, and the
  knot at hand follows the last section.
-/
def Builder.Follows
    (ls : List ScriptLine)
    (b : Builder) : Prop :=
  match b.knot with
  | none =>
      sections ScriptLine.isKnot ls = [] ∧
        sections ScriptLine.isStitch ls = [] ∧
        b.knots.entries = []
  | some k =>
      ∃ ss s, sections ScriptLine.isKnot ls = ss ++ [s] ∧
        k.name = s.name ∧
        List.Forall₂ KnotFollows ss b.knots.entries ∧
        k.Follows s.lines

end BranchingStory

------------------------------------------------------------
-- Headers
------------------------------------------------------------

namespace BranchingStory

open Reading

variable {ls : List ScriptLine}
variable {n : Nat}

/- A knot whose content is finished follows all sections. -/
theorem OpenKnot.closeBody_follows
    {known : Table String Knot}
    {k : OpenKnot}
    (hSound : k.IsSound known)
    (hFollows : k.Follows ls) :
    List.Forall₂ StitchFollows
      (sections ScriptLine.isStitch ls)
      k.closeBody.stitches.entries := by
  cases hCurrent : k.current with
  | none =>
      simp only [Follows, hCurrent] at hFollows
      simp only [closeBody, hCurrent]
      rw [hFollows.1, hFollows.2]
      exact List.Forall₂.nil
  | some b =>
      simp only [Follows, hCurrent] at hFollows
      rcases hFollows with ⟨ss, s, hLast, hName, hDone, hOpen⟩
      rcases hSound.body b hCurrent with
        ⟨name, hName', _, hNew⟩
      have hSame : s.name = name := by
        rw [hName] at hName'
        exact Option.some.inj hName'
      simp only [closeBody, hCurrent, hName', hLast,
        Table.entries_insert_of_notMem hNew]
      refine List.rel_append hDone
        (List.Forall₂.cons ?_ List.Forall₂.nil)
      refine ⟨hSame.symm, hSame.symm, ?_⟩
      change List.Forall₂ _ _ (itemEntries b.spine.finish)
      rw [Spine.entries_finish]
      exact hOpen

namespace Builder

/- Knots follow all sections once the last is finished. -/
theorem closeKnot_follows
    (n : Nat)
    (ls : List ScriptLine)
    (b : Builder) :
    b.closeKnot.Settles fun b' =>
      b.IsSound n → b.Follows ls →
        List.Forall₂ KnotFollows
          (sections ScriptLine.isKnot ls)
          b'.knots.entries := by
  unfold closeKnot
  split
  · next hNone =>
      refine Settles.pure fun _ hFollows => ?_
      simp only [Follows, hNone] at hFollows
      rw [hFollows.1, hFollows.2.2]
      exact List.Forall₂.nil
  · next k hKnot =>
      apply Settles.refused rfl k.closeBody.line
      refine Settles.bind (reportEmptyStitches_settles _ _)
        fun _ => ?_
      refine Settles.pure fun _ _ hSound hFollows => ?_
      have hOpen := hSound.knot k hKnot
      have hClosed := OpenKnot.closeBody_isClosed hOpen
      have hFirst : k.closeBody.repeated = false :=
        hClosed.repeated.trans hOpen.first
      have hNew : k.closeBody.name ∉ b.knots.keys := by
        rw [hClosed.name]
        exact hOpen.isNew
      simp only [Follows, hKnot] at hFollows
      rcases hFollows with ⟨ss, s, hLast, hName, hDone, hKnot'⟩
      have hSame : k.closeBody.name = s.name :=
        hClosed.name.trans hName
      simp only [hFirst, Bool.false_eq_true, if_false, hLast,
        Table.entries_insert_of_notMem hNew]
      refine List.rel_append hDone
        (List.Forall₂.cons ?_ List.Forall₂.nil)
      exact ⟨hSame, hSame,
        OpenKnot.closeBody_follows hOpen hKnot'⟩

/- A header of a knot begins a section of its own. -/
theorem addKnot_follows
    {l : ScriptLine}
    (hKnot : l.isKnot = true)
    (b : Builder) :
    (b.addKnot l.line l.text).Settles fun b' =>
      b.IsSound n → b.Follows ls →
        b'.Follows (ls ++ [l]) := by
  unfold addKnot
  refine Settles.bind (b.closeKnot_follows n ls)
    fun b' => ?_
  dsimp only
  cases hLookup : b'.knots.lookup l.text with
  | some k =>
      refine Settles.bind
        (Settles.error (Q := fun _ => False) rfl l.line)
        fun _ => ?_
      exact Settles.pure fun hFalse => hFalse.elim
  | none =>
      refine Settles.pure fun hClosed hSound hFollows => ?_
      refine ⟨_, _, sections_snoc_header hKnot, rfl,
        hClosed hSound hFollows, ?_⟩
      simp [OpenKnot.Follows, OpenKnot.empty, Table.empty,
        sections, headedSections]

/- A header of a stitch begins a section in its knot. -/
theorem addStitch_follows
    {l : ScriptLine}
    (hStitch : l.isStitch = true)
    (hLine : l.isKnot = false)
    (b : Builder) :
    (b.addStitch l.line l.text).Settles fun b' =>
      b.IsSound n → b.Follows ls →
        b'.Follows (ls ++ [l]) := by
  unfold addStitch
  split
  · exact Settles.error_pure rfl l.line b
  · next k hKnot =>
      split
      · exact Settles.error_pure rfl l.line _
      · refine Settles.pure fun hSound hFollows => ?_
        have hOpen := hSound.knot k hKnot
        have hClosed := OpenKnot.closeBody_isClosed hOpen
        simp only [Follows, hKnot] at hFollows
        rcases hFollows with
          ⟨ss, s, hLast, hName, hDone, hKnot'⟩
        refine ⟨ss, _, sections_snoc_line hLine hLast, ?_,
          hDone, ?_⟩
        · exact hClosed.name.trans hName
        · refine ⟨_, _, sections_snoc_header hStitch, rfl,
            OpenKnot.closeBody_follows hOpen hKnot', ?_⟩
          simp [Section.content]

end Builder

end BranchingStory

------------------------------------------------------------
-- Content
------------------------------------------------------------

namespace BranchingStory

open Reading

namespace Builder

variable {ls : List ScriptLine}
variable {l : ScriptLine}
variable {n : Nat}

/-
  Whether the content at hand takes up a content line next:
  the line belongs to its section, and all content lines ahead
  of it there have been read.
-/
def Awaits
    (ls : List ScriptLine)
    (l : ScriptLine)
    (b : Builder)
    (k : OpenKnot)
    (body : OpenBody) : Prop :=
  ∃ ss s ts t xs,
    sections ScriptLine.isKnot (ls ++ [l]) = ss ++ [s] ∧
      k.name = s.name ∧
      List.Forall₂ KnotFollows ss b.knots.entries ∧
      sections ScriptLine.isStitch s.lines = ts ++ [t] ∧
      body.name = some t.name ∧
      List.Forall₂ StitchFollows ts k.stitches.entries ∧
      t.content = xs ++ [l] ∧
      List.Forall₂ ScriptLine.IsReadAs xs body.spine.entries

/- A content line that is put last comes last. -/
theorem content_snoc
    (hContent : l.isContent = true)
    (s : Section) :
    (Section.mk s.name (s.lines ++ [l])).content =
      s.content ++ [l] := by
  simp [Section.content, hContent]

/- Lines without sections have no content. -/
theorem content_of_sections_nil
    {isHeader : ScriptLine → Bool}
    (hNil : sections isHeader ls = [])
    (name : String) :
    (Section.mk name ls).content = [] := by
  rw [Section.content, List.filter_eq_nil_iff]
  intro x hMem
  rw [(sections_eq_nil_iff.mp hNil).2 x hMem]
  exact Bool.false_ne_true

/- The content that takes the next part awaits its line. -/
theorem ensureBody_awaits
    {b b₁ : Builder}
    {k : OpenKnot}
    {body : OpenBody}
    {line : Nat}
    (hFollows : b.Follows ls)
    (hContent : l.isContent = true)
    (hEnsure : b.ensureBody line = (b₁, k, body)) :
    b₁.Awaits ls l k body := by
  rcases ScriptLine.not_header_of_isContent hContent with
    ⟨hLine, hLine'⟩
  cases finds_of_ensureBody hEnsure with
  | nothing hKnot =>
      -- The line opens the root knot and its root stitch.
      simp only [Follows, hKnot] at hFollows
      rcases hFollows with ⟨hNoKnot, hNoStitch, hEmpty⟩
      refine ⟨[], _, [], _, [],
        sections_snoc_first hLine hContent hNoKnot, rfl, ?_,
        sections_snoc_first hLine' hContent hNoStitch, rfl,
        List.Forall₂.nil, ?_, ?_⟩
      · rw [hEmpty]
        exact List.Forall₂.nil
      · rw [content_snoc hContent ⟨rootName, ls⟩,
          content_of_sections_nil hNoStitch]
      · simp
  | knot hKnot hCurrent =>
      -- The line opens the root stitch of its knot.
      simp only [Follows, hKnot, OpenKnot.Follows, hCurrent]
        at hFollows
      rcases hFollows with
        ⟨ss, s, hLast, hName, hDone, hNoStitch, hEmpty⟩
      refine ⟨ss, _, [], _, [], sections_snoc_line hLine hLast,
        hName, hDone,
        sections_snoc_first hLine' hContent hNoStitch,
        rfl, ?_, ?_, ?_⟩
      · rw [hEmpty]
        exact List.Forall₂.nil
      · rw [content_snoc hContent ⟨rootName, s.lines⟩,
          content_of_sections_nil hNoStitch]
      · simp
  | content hKnot hCurrent =>
      simp only [Follows, hKnot, OpenKnot.Follows, hCurrent]
        at hFollows
      rcases hFollows with
        ⟨ss, s, hLast, hName, hDone, ts, t, hLast', hName',
          hDone', hRead⟩
      exact ⟨ss, _, ts, _, t.content,
        sections_snoc_line hLine hLast, hName, hDone,
        sections_snoc_line hLine' hLast', hName', hDone',
        content_snoc hContent t, hRead⟩

/- An entry that the line is read as makes it follow. -/
theorem putBody_follows
    {b : Builder}
    {k : OpenKnot}
    {body : OpenBody}
    {spine : Spine}
    {e : Entry}
    (next : Nat)
    (waiting : List String)
    (hAwaits : b.Awaits ls l k body)
    (hRead : l.IsReadAs e)
    (hSpine : spine.entries = body.spine.entries ++ [e]) :
    ({ b.putBody k { body with spine := spine } with
        nextId := next
        waitingTags := waiting } : Builder).Follows
      (ls ++ [l]) := by
  rcases hAwaits with
    ⟨ss, s, ts, t, xs, hLast, hName, hDone, hLast', hName',
      hDone', hContent, hAhead⟩
  refine ⟨ss, s, hLast, hName, hDone, ts, t, hLast', hName',
    hDone', ?_⟩
  rw [hContent, hSpine]
  exact List.rel_append hAhead
    (List.Forall₂.cons hRead List.Forall₂.nil)

/-
  Whether a step of building takes what follows the lines so
  far to what follows the next line too, unless an error is on
  record.
-/
def Takes
    (b : Builder)
    (l : ScriptLine)
    (r : Reading Builder) : Prop :=
  r.Ensures fun d b' d' => d'.IsClean →
    ∀ ls, b.IsSound d.numbered → b.Follows ls →
      b'.Follows (ls ++ [l])

/- What is settled about every section holds of a step. -/
theorem Takes.of_settles
    {b : Builder}
    {r : Reading Builder}
    (hSettles : ∀ n ls, r.Settles fun b' =>
      b.IsSound n → b.Follows ls → b'.Follows (ls ++ [l])) :
    b.Takes l r := by
  intro d b' d' hRun hClean ls
  exact ((hSettles d.numbered ls).checks d b' d' hRun).2 hClean

/- An expression that cannot be read is an error. -/
theorem readExpr?_settles
    (line : Nat)
    (cs : List Char) :
    (readExpr? line cs).Settles fun r => r.isSome = true := by
  unfold readExpr?
  split
  · exact Settles.pure rfl
  · exact Settles.of_idles (Idles.giveUp _)
  · exact Settles.error_pure rfl line none

/- An assignment that cannot be read is an error. -/
theorem readAssignment_settles
    (line : Nat)
    (body : List Char) :
    (readAssignment line body).Settles
      fun r => r.isSome = true := by
  unfold readAssignment
  dsimp only
  split
  · refine Settles.bind (readExpr?_settles line _) fun e => ?_
    refine Settles.pure fun hSome => ?_
    rw [Option.isSome_map]
    exact hSome
  · exact Settles.error_pure rfl line none

/- A nesting that skips a level is an error. -/
theorem clampDepth_settles
    (line depth innermost : Nat) :
    (clampDepth line depth innermost).Settles fun n =>
      n = depth ∧ depth ≤ innermost + 1 := by
  unfold clampDepth
  split
  · exact Settles.error_pure rfl line _
  · next hShallow =>
      exact Settles.pure ⟨rfl, Nat.le_of_not_lt hShallow⟩

/- Text or a divert is taken up as a line. -/
theorem addLine_takes
    (b : Builder)
    (hContent : l.isContent = true)
    (hRead : ∀ d d' content tags, d'.IsClean →
      (readLine l.line l.text.toList).run d =
        .ok (content, d') →
      l.IsReadAs (.line (content.withTags tags))) :
    b.Takes l (b.addLine l.line l.text) := by
  intro d b' d' hRun hClean ls _ hFollows
  unfold addLine at hRun
  generalize hEnsure : b.ensureBody l.line = opened at hRun
  rcases opened with ⟨b₁, k, body⟩
  rcases run_bind_ok.mp hRun with ⟨content, d₁, hLine, hRun⟩
  rcases run_pure_ok.mp hRun with ⟨rfl, rfl⟩
  refine putBody_follows _ _
    (ensureBody_awaits hFollows hContent hEnsure)
    (hRead d d₁ content b₁.waitingTags hClean hLine) ?_
  rw [Spine.entries_append, Item.entries]

/- An assignment that is read is taken up. -/
theorem addAssignment_takes
    (b : Builder)
    (hKind : l.kind = .assignment) :
    b.Takes l (b.addAssignment l.line l.text) := by
  intro d b' d' hRun hClean ls _ hFollows
  rcases l with ⟨kind, line, text⟩
  simp only at hKind hRun
  subst hKind
  unfold addAssignment at hRun
  generalize hEnsure : b.ensureBody line = opened at hRun
  rcases opened with ⟨b₁, k, body⟩
  rcases run_bind_ok.mp hRun with ⟨r, d₁, hRead, hRun⟩
  have hSettles := readAssignment_settles line text.toList
  have hSome := (hSettles.checks d r d₁ hRead).2
  cases r with
  | none =>
      rcases run_pure_ok.mp hRun with ⟨rfl, rfl⟩
      cases hSome hClean
  | some p =>
      rcases p with ⟨name, value⟩
      rcases run_pure_ok.mp hRun with ⟨rfl, rfl⟩
      refine putBody_follows _ _
        (ensureBody_awaits hFollows rfl hEnsure)
        (.assignment hClean hRead) ?_
      rw [Spine.entries_append, Item.entries]

/- A choice is taken up at its depth. -/
theorem addChoice_takes
    (b : Builder)
    {depth : Nat}
    {sticky : Bool}
    (hKind : l.kind = .choice depth sticky)
    (hDepth : 0 < depth) :
    b.Takes l (b.addChoice l.line depth sticky l.text) := by
  intro d b' d' hRun hClean ls _ hFollows
  rcases l with ⟨kind, line, text⟩
  simp only at hKind hRun
  subst hKind
  unfold addChoice at hRun
  generalize hEnsure : b.ensureBody line = opened at hRun
  rcases opened with ⟨b₁, k, body⟩
  have hAwaits :=
    ensureBody_awaits (l := ⟨.choice depth sticky, line, text⟩)
      hFollows rfl hEnsure
  rcases run_bind_ok.mp hRun with ⟨depth', d₁, hClamp, hRun⟩
  rcases run_bind_ok.mp hRun with ⟨c, d₂, hRead, hRun⟩
  have hRest := readChoice_writes line sticky _ d₁ c d₂ hRead
  have hSettles :=
    clampDepth_settles line depth body.spine.depth
  have hLevel := (hSettles.checks d depth' d₁ hClamp).2
  dsimp only at hRun
  split at hRun
  · -- The choice begins a set of its own.
    next hDeeper =>
      rcases run_pure_ok.mp hRun with ⟨rfl, rfl⟩
      rcases hLevel (hRest.1.precedes.isClean hClean) with
        ⟨rfl, hNested⟩
      refine putBody_follows _ _ hAwaits
        (.choice b₁.waitingTags hClean hRead) ?_
      have hNext : body.spine.depth + 1 = depth' := by omega
      rw [Spine.entries_openSet, hNext]
  · -- The choice begins a further branch of a set.
    next hShallow =>
      rcases run_pure_ok.mp hRun with ⟨rfl, rfl⟩
      rcases hLevel (hRest.1.precedes.isClean hClean) with
        ⟨rfl, hNested⟩
      refine putBody_follows _ _ hAwaits
        (.choice b₁.waitingTags hClean hRead) ?_
      have hSame :
          (body.spine.closeTo depth').depth = depth' := by
        rw [Spine.depth_closeTo]
        omega
      rw [Spine.entries_nextBranch _ _ _ (by omega), hSame,
        Spine.entries_closeTo]

/- A gather is taken up at its depth. -/
theorem addGather_takes
    (b : Builder)
    {depth : Nat}
    (hKind : l.kind = .gather depth) :
    b.Takes l (b.addGather l.line depth l.text) := by
  intro d b' d' hRun hClean ls _ hFollows
  rcases l with ⟨kind, line, text⟩
  simp only at hKind hRun
  subst hKind
  unfold addGather at hRun
  generalize hEnsure : b.ensureBody line = opened at hRun
  rcases opened with ⟨b₁, k, body⟩
  have hAwaits :=
    ensureBody_awaits (l := ⟨.gather depth, line, text⟩)
      hFollows rfl hEnsure
  rcases run_bind_ok.mp hRun with ⟨depth', d₁, hClamp, hRun⟩
  have hSettles :=
    clampDepth_settles line depth body.spine.depth
  have hLevel := (hSettles.checks d depth' d₁ hClamp).2
  dsimp only at hRun
  split at hRun
  · next hEmpty =>
      rcases run_pure_ok.mp hRun with ⟨rfl, rfl⟩
      rw [(hLevel hClean).1]
      have hText : text = "" := by
        simpa [String.isEmpty_iff] using hEmpty
      subst hText
      refine putBody_follows _ _ hAwaits
        (.bareGather line depth) ?_
      rw [Spine.entries_append, Spine.entries_closeTo,
        Item.entries]
  · next hText =>
      rcases run_bind_ok.mp hRun with
        ⟨content, d₂, hRead, hRun⟩
      rcases run_pure_ok.mp hRun with ⟨rfl, rfl⟩
      have hRest := readLine_writes line _ d₁ content d₂ hRead
      rw [(hLevel (hRest.1.precedes.isClean hClean)).1]
      refine putBody_follows _ _ hAwaits
        (.gather b₁.waitingTags (by simpa using hText) hClean
          hRead) ?_
      rw [Spine.entries_append, Spine.entries_closeTo,
        Item.entries]

end Builder

end BranchingStory

------------------------------------------------------------
-- Other Lines
------------------------------------------------------------

namespace BranchingStory

open Reading

namespace Builder

variable {ls : List ScriptLine}
variable {l : ScriptLine}

/- A stitch without a new line of content is as it was. -/
theorem openKnot_follows_idle
    {k : OpenKnot}
    (hStitch : l.isStitch = false)
    (hIdle : l.isContent = false)
    (hFollows : k.Follows ls) :
    k.Follows (ls ++ [l]) := by
  cases hCurrent : k.current with
  | none =>
      simp only [OpenKnot.Follows, hCurrent] at hFollows ⊢
      exact ⟨sections_snoc_idle hStitch hIdle hFollows.1,
        hFollows.2⟩
  | some body =>
      simp only [OpenKnot.Follows, hCurrent] at hFollows ⊢
      rcases hFollows with ⟨ts, t, hLast, hName, hDone, hRead⟩
      refine ⟨ts, _, sections_snoc_line hStitch hLast, hName,
        hDone, ?_⟩
      simpa [Section.content, hIdle] using hRead

/- What is built follows a line without content as well. -/
theorem follows_idle
    {b : Builder}
    (hKnot : l.isKnot = false)
    (hStitch : l.isStitch = false)
    (hIdle : l.isContent = false)
    (hFollows : b.Follows ls) :
    b.Follows (ls ++ [l]) := by
  cases hOpen : b.knot with
  | none =>
      simp only [Follows, hOpen] at hFollows ⊢
      rcases hFollows with ⟨hNoKnot, hNoStitch, hEmpty⟩
      exact ⟨sections_snoc_idle hKnot hIdle hNoKnot,
        sections_snoc_idle hStitch hIdle hNoStitch, hEmpty⟩
  | some k =>
      simp only [Follows, hOpen] at hFollows ⊢
      rcases hFollows with ⟨ss, s, hLast, hName, hDone, hRest⟩
      exact ⟨ss, _, sections_snoc_line hKnot hLast, hName,
        hDone, openKnot_follows_idle hStitch hIdle hRest⟩

/- A declaration changes no knot. -/
theorem addDeclaration_follows
    (line : Nat)
    (constant : Bool)
    (text : String)
    (b : Builder) :
    (b.addDeclaration line constant text).Settles fun b' =>
      ∀ ls, b.Follows ls → b'.Follows ls := by
  unfold addDeclaration
  split
  · exact Settles.error_pure rfl line b
  · refine Settles.bind
      (Settles.of_idles (readDeclaration_idles line _))
      fun r => ?_
    cases r with
    | none => exact Settles.pure fun _ ls hFollows => hFollows
    | some p =>
        dsimp only
        split
        · exact Settles.error_pure rfl line b
        · exact Settles.pure fun _ ls hFollows => hFollows

/- A line of tags changes no content. -/
theorem addTags_follows
    (text : String)
    {b : Builder}
    (hFollows : b.Follows ls) :
    (b.addTags text).Follows ls := by
  unfold addTags
  generalize splitTags text.toList = parts
  rcases parts with ⟨content, tags⟩
  dsimp only
  split
  · exact hFollows
  · next k hKnot =>
      split
      · simp only [Follows, hKnot] at hFollows
        exact hFollows
      · exact hFollows

end Builder

end BranchingStory

------------------------------------------------------------
-- Building
------------------------------------------------------------

namespace BranchingStory

open Reading

namespace Builder

/- Every proper line is taken up. -/
theorem add_takes
    (b : Builder)
    {l : ScriptLine}
    (hProper : l.IsProper) :
    b.Takes l (b.add l) := by
  have hOwn :
      l.isKnot = decide (l.kind = .knot) ∧
        l.isStitch = decide (l.kind = .stitch) := ⟨rfl, rfl⟩
  rcases hOwn with ⟨hKnot, hStitch⟩
  unfold add
  cases hKind : l.kind with
  | text =>
      rcases l with ⟨kind, line, text⟩
      cases hKind
      exact addLine_takes b rfl fun _ _ _ tags hClean hRead =>
        .text tags hClean hRead
  | divert =>
      rcases l with ⟨kind, line, text⟩
      cases hKind
      exact addLine_takes b rfl fun _ _ _ tags hClean hRead =>
        .divert tags hClean hRead
  | choice depth sticky =>
      exact addChoice_takes b hKind
        (hProper.depth depth sticky hKind)
  | gather depth => exact addGather_takes b hKind
  | assignment => exact addAssignment_takes b hKind
  | knot =>
      apply Takes.of_settles
      intro n ls
      exact addKnot_follows (by simp [hKnot, hKind]) b
  | stitch =>
      apply Takes.of_settles
      intro n ls
      exact addStitch_follows (by simp [hStitch, hKind])
        (by simp [hKnot, hKind]) b
  | declaration constant =>
      apply Takes.of_settles
      intro n ls
      refine (addDeclaration_follows l.line constant l.text
        b).mono fun b' hSame _ hFollows => ?_
      exact follows_idle (by simp [hKnot, hKind])
        (by simp [hStitch, hKind])
        (by simp [ScriptLine.isContent, hKind])
        (hSame ls hFollows)
  | tag =>
      apply Takes.of_settles
      intro n ls
      refine Settles.pure fun _ hFollows => ?_
      exact follows_idle (by simp [hKnot, hKind])
        (by simp [hStitch, hKind])
        (by simp [ScriptLine.isContent, hKind])
        (addTags_follows l.text hFollows)

/- All lines of a script are taken up, one after the other. -/
theorem foldlM_add_takes
    (ls : List ScriptLine)
    (hProper : ∀ l ∈ ls, l.IsProper)
    (b : Builder) :
    (ls.foldlM Builder.add b).Ensures fun d b' d' =>
      d'.IsClean → ∀ before,
        b.IsSound d.numbered → b.Follows before →
          b'.IsSound d'.numbered ∧
            b'.Follows (before ++ ls) := by
  induction ls generalizing b with
  | nil =>
      refine Ensures.pure fun d _ before hSound hFollows => ?_
      rw [List.append_nil]
      exact ⟨hSound, hFollows⟩
  | cons l ls ih =>
      intro d b' d' hRun hClean before hSound hFollows
      rcases run_bind_ok.mp hRun with ⟨b₁, d₁, hFirst, hRest⟩
      have hHead := hProper l List.mem_cons_self
      have hProper' : ∀ l' ∈ ls, l'.IsProper :=
        fun l' hMem => hProper l' (List.mem_cons_of_mem _ hMem)
      have hAdds := foldlM_add_keeps ls hProper' b₁ d₁ b' d'
        hRest
      have hClean₁ := hAdds.1.isClean hClean
      have hKeeps := add_keeps b hHead d b₁ d₁ hFirst
      have hSound₁ := (hKeeps.2.2 hClean₁ hSound).1
      have hFollows₁ :=
        add_takes b hHead d b₁ d₁ hFirst hClean₁ before hSound
          hFollows
      rw [List.append_cons]
      exact ih hProper' b₁ d₁ b' d' hRest hClean _ hSound₁
        hFollows₁

/- Nothing built follows no lines. -/
theorem follows_empty :
    empty.Follows [] :=
  ⟨rfl, rfl, rfl⟩

/- Nothing built is sound, whatever has been numbered. -/
theorem isSound_empty_of
    (n : Nat) :
    empty.IsSound n :=
  { isSound_empty with
    leaves := { isSound_empty.leaves with
      most := by simp [leaves, empty, alternativesOf] } }

end Builder

/-
  The outline of lines of a script has a knot for each section
  of them, and in it a stitch for each section of its lines,
  and each stitch consists of what its content lines are read
  as, in the order of the lines.
-/
theorem outline_follows_lines
    {source : String}
    {ls : List ScriptLine}
    {d d₁ d₂ d₃ : Draft}
    {o? : Option Outline}
    (hLines : (classifyScript source).run d = .ok (ls, d₁))
    (hBuild : (buildOutline ls).run d₂ = .ok (o?, d₃))
    (hClean : d₃.IsClean) :
    ∃ o, o? = some o ∧
      List.Forall₂ KnotFollows
        (sections ScriptLine.isKnot ls) o.knots.entries := by
  rcases classifyScript_idles source d ls d₁ hLines with
    ⟨_, _, hProper, _, _⟩
  rcases run_bind_ok.mp hBuild with ⟨b, d₄, hAll, hRun⟩
  rcases run_bind_ok.mp hRun with ⟨b', d₅, hClose, hRun⟩
  have hSettles := b.closeKnot_follows d₄.numbered ls
  have hRest :
      d₅.IsClean → List.Forall₂ KnotFollows
        (sections ScriptLine.isKnot ls) b'.knots.entries := by
    intro hClean
    have hAdds := hSettles.idles d₄ b' d₅ hClose
    rcases
        Builder.foldlM_add_takes ls hProper .empty d₂ b d₄ hAll
          (hAdds.1.isClean hClean) []
          (Builder.isSound_empty_of _)
          Builder.follows_empty with
      ⟨hSound, hFollows⟩
    exact (hSettles.checks d₄ b' d₅ hClose).2 hClean hSound
      hFollows
  cases hStart : b'.start? with
  | none =>
      rw [hStart] at hRun
      have hReport :
          Settles (do
            Reading.report .emptyStory 1
            return (none : Option Outline)) fun _ => False :=
        Settles.error_pure rfl 1 none
      exact ((hReport.checks d₅ o? d₃ hRun).2 hClean).elim
  | some start =>
      rw [hStart] at hRun
      rcases run_pure_ok.mp hRun with ⟨rfl, rfl⟩
      exact ⟨_, rfl, hRest hClean⟩

/-
  A script with content ahead of its headers, with choices and
  a gather inside a choice, and with content ahead of a stitch.
-/
def nestedScript : String :=
  "Go\n* A\n** B\n-- C\n* D\n== k\nE\n= s\n- F\n"

/- There are two knots in it, with one stitch and with two. -/
theorem outline_follows_nestedScript :
    ∃ ls d₁ o? d₃,
      (classifyScript nestedScript).run ⟨[], 0⟩ =
          .ok (ls, d₁) ∧
        (buildOutline ls).run d₁ = .ok (o?, d₃) ∧
        d₃.IsClean ∧
        ((sections ScriptLine.isKnot ls).map fun s =>
          (sections ScriptLine.isStitch s.lines).length) =
          [1, 2] ∧
        ∃ o, o? = some o ∧
          List.Forall₂ KnotFollows
            (sections ScriptLine.isKnot ls)
            o.knots.entries := by
  have hCheck :
      (match (classifyScript nestedScript).run ⟨[], 0⟩ with
        | .error _ => false
        | .ok (ls, d₁) =>
            match (buildOutline ls).run d₁ with
            | .error _ => false
            | .ok (_, d₃) =>
                d₃.issues.isEmpty &&
                  ((sections ScriptLine.isKnot ls).map
                    fun s => (sections ScriptLine.isStitch
                      s.lines).length) = [1, 2]) = true := by
    decide +kernel
  cases hLines : (classifyScript nestedScript).run ⟨[], 0⟩ with
  | error e =>
      rw [hLines] at hCheck
      cases hCheck
  | ok r =>
      rcases r with ⟨ls, d₁⟩
      rw [hLines] at hCheck
      dsimp only at hCheck
      cases hBuild : (buildOutline ls).run d₁ with
      | error e =>
          rw [hBuild] at hCheck
          cases hCheck
      | ok r =>
          rcases r with ⟨o?, d₃⟩
          rw [hBuild] at hCheck
          simp only [Bool.and_eq_true, decide_eq_true_eq,
            List.isEmpty_iff] at hCheck
          rcases hCheck with ⟨hNone, hSections⟩
          have hClean : d₃.IsClean := by
            simp [Draft.IsClean, hNone]
          exact ⟨ls, d₁, o?, d₃, rfl, hBuild, hClean,
            hSections,
            outline_follows_lines hLines hBuild hClean⟩

end BranchingStory
