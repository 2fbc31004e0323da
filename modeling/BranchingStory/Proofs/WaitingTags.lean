import BranchingStory.Proofs.Accepted
import BranchingStory.Proofs.Sections
import BranchingStory.Proofs.StoreLaws

/-
  This file follows the tags on lines of their own.  The first
  ones belong to the story or to their knot.  All others wait
  for the next line that can carry tags, and stand ahead of its
  own; those that still wait when their knot ends are dropped.

  Key definitions include:
    * `firstTags`
    * `carried`
    * `leftOver`
    * `Entry.HasTags`
    * `Builder.KeepsTags`

  Key theorems include:
    * `tagsIn_eq`
    * `Builder.add_passesTags`
    * `Builder.foldlM_add_passesTags`
    * `KnotCarries.losesNoTag`
    * `tags_reach_their_places`
-/

------------------------------------------------------------
-- Tags Of Lines
------------------------------------------------------------

namespace BranchingStory

namespace ScriptLine

/- The tags that are written on a line. -/
def tags
    (l : ScriptLine) : List String :=
  (splitTags l.text.toList).2

/- Whether a line holds nothing but tags. -/
def isTag
    (l : ScriptLine) : Bool :=
  l.kind = .tag

/- The tags of a line that holds nothing else. -/
def loneTags
    (l : ScriptLine) : List String :=
  if l.isTag then l.tags else []

/- Whether a line ends the tags of what it stands in. -/
def isBreak
    (l : ScriptLine) : Bool :=
  l.isKnot || l.isStitch || l.isContent

/- Whether a line carries the tags that wait for it. -/
def takesTags
    (l : ScriptLine) : Bool :=
  match l.kind with
  | .text | .divert | .choice _ _ => true
  | .gather _ => !l.text.isEmpty
  | _ => false

/- Only content carries tags. -/
theorem isContent_of_takesTags
    {l : ScriptLine}
    (hTakes : l.takesTags = true) :
    l.isContent = true := by
  rcases l with ⟨kind, line, text⟩
  cases kind <;> simp_all [takesTags, isContent]

/- Headers and content are no lines of tags. -/
theorem loneTags_of_isBreak
    {l : ScriptLine}
    (hBreak : l.isBreak = true) :
    l.loneTags = [] := by
  rcases l with ⟨kind, line, text⟩
  cases kind <;>
    simp_all [isBreak, isKnot, isStitch, isContent, loneTags,
      isTag]

theorem isBreak_of_isContent
    {l : ScriptLine}
    (hContent : l.isContent = true) :
    l.isBreak = true := by
  simp [isBreak, hContent]

end ScriptLine

/- The tags of lines that hold nothing else, in their order. -/
def tagsIn
    (ls : List ScriptLine) : List String :=
  ls.flatMap ScriptLine.loneTags

/- The tags ahead of all headers and all content. -/
def firstTags
    (ls : List ScriptLine) : List String :=
  tagsIn (ls.takeWhile fun l => !l.isBreak)

/- The lines from the first header or content on. -/
def laterLines
    (ls : List ScriptLine) : List ScriptLine :=
  ls.dropWhile fun l => !l.isBreak

/-
  The content lines among lines, each with the tags that it
  carries besides its own, if some tags are waiting.
-/
def carried
    (waiting : List String) :
    List ScriptLine → List (List String × ScriptLine)
  | [] => []
  | l :: ls =>
      if l.takesTags then (waiting, l) :: carried [] ls
      else if l.isContent then ([], l) :: carried waiting ls
      else carried (waiting ++ l.loneTags) ls

/- The tags that are waiting after lines. -/
def leftOver
    (waiting : List String) : List ScriptLine → List String
  | [] => waiting
  | l :: ls =>
      if l.takesTags then leftOver [] ls
      else leftOver (waiting ++ l.loneTags) ls

/- Tags wait from lines to the lines after them. -/
theorem carried_append
    (waiting : List String)
    (ls ms : List ScriptLine) :
    carried waiting (ls ++ ms) =
      carried waiting ls ++
        carried (leftOver waiting ls) ms := by
  induction ls generalizing waiting with
  | nil => rfl
  | cons l ls ih =>
      rw [List.cons_append, carried, carried, leftOver]
      cases hTakes : l.takesTags with
      | true => simp [ih]
      | false =>
          cases hContent : l.isContent with
          | false => simp [ih]
          | true =>
              have hNone := ScriptLine.loneTags_of_isBreak
                (ScriptLine.isBreak_of_isContent hContent)
              simp [ih, hNone]

theorem leftOver_append
    (waiting : List String)
    (ls ms : List ScriptLine) :
    leftOver waiting (ls ++ ms) =
      leftOver (leftOver waiting ls) ms := by
  induction ls generalizing waiting with
  | nil => rfl
  | cons l ls ih =>
      rw [List.cons_append, leftOver, leftOver]
      split <;> exact ih _

/- Every tag that waits is carried or left over, in order. -/
theorem waiting_tagsIn_eq
    (waiting : List String)
    (ls : List ScriptLine) :
    waiting ++ tagsIn ls =
      (carried waiting ls).flatMap Prod.fst ++
        leftOver waiting ls := by
  induction ls generalizing waiting with
  | nil => simp [tagsIn, carried, leftOver]
  | cons l ls ih =>
      rw [tagsIn, List.flatMap_cons, carried, leftOver]
      change waiting ++ (l.loneTags ++ tagsIn ls) = _
      cases hTakes : l.takesTags with
      | true =>
          have hNone := ScriptLine.loneTags_of_isBreak
            (ScriptLine.isBreak_of_isContent
              (ScriptLine.isContent_of_takesTags hTakes))
          have hRest := ih []
          simp_all
      | false =>
          cases hContent : l.isContent with
          | true =>
              have hNone := ScriptLine.loneTags_of_isBreak
                (ScriptLine.isBreak_of_isContent hContent)
              simpa [hNone] using ih waiting
          | false => simpa using ih (waiting ++ l.loneTags)

/- Every tag of lines is one of the first, or waits. -/
theorem tagsIn_eq
    (ls : List ScriptLine) :
    tagsIn ls =
      firstTags ls ++
        (carried [] (laterLines ls)).flatMap Prod.fst ++
          leftOver [] (laterLines ls) := by
  have hWaiting := waiting_tagsIn_eq [] (laterLines ls)
  rw [List.nil_append] at hWaiting
  rw [List.append_assoc, ← hWaiting, firstTags, tagsIn,
    tagsIn, tagsIn, ← List.flatMap_append, laterLines,
    List.takeWhile_append_dropWhile]

/- After a header or content no tag belongs to the first. -/
theorem firstTags_snoc_of_break
    {ls : List ScriptLine}
    (hBreak : ls.any ScriptLine.isBreak = true)
    (l : ScriptLine) :
    firstTags (ls ++ [l]) = firstTags ls := by
  rw [firstTags, firstTags, List.takeWhile_append, if_neg]
  intro hLength
  have hAll := (List.takeWhile_prefix _).eq_of_length hLength
  rw [List.takeWhile_eq_self_iff] at hAll
  rcases List.any_eq_true.mp hBreak with ⟨x, hMem, hBreak⟩
  simpa [hBreak] using hAll x hMem

/- Until then all tags do. -/
theorem firstTags_snoc_of_all
    {ls : List ScriptLine}
    (hNone : ls.any ScriptLine.isBreak = false)
    (l : ScriptLine) :
    firstTags (ls ++ [l]) = firstTags ls ++ l.loneTags := by
  have hWhile :
      (ls.takeWhile fun l => !l.isBreak) = ls := by
    rw [List.takeWhile_eq_self_iff]
    intro x hMem
    simpa using List.any_eq_false.mp hNone x hMem
  rw [firstTags, firstTags, List.takeWhile_append, hWhile,
    if_pos rfl, tagsIn, tagsIn, List.flatMap_append]
  cases hBreak : l.isBreak with
  | true =>
      simp [hBreak, ScriptLine.loneTags_of_isBreak hBreak]
  | false => simp [hBreak]

/- A line without tags adds nothing to the first tags. -/
theorem firstTags_snoc_idle
    {l : ScriptLine}
    (hIdle : l.loneTags = [])
    (ls : List ScriptLine) :
    firstTags (ls ++ [l]) = firstTags ls := by
  cases hBreak : ls.any ScriptLine.isBreak with
  | true => exact firstTags_snoc_of_break hBreak l
  | false =>
      rw [firstTags_snoc_of_all hBreak, hIdle, List.append_nil]

/- There are no later lines before the first of them. -/
theorem laterLines_of_all
    {ls : List ScriptLine}
    (hNone : ls.any ScriptLine.isBreak = false) :
    laterLines ls = [] := by
  rw [laterLines, List.dropWhile_eq_nil_iff]
  intro x hMem
  simpa using List.any_eq_false.mp hNone x hMem

/- A header or content is a later line. -/
theorem laterLines_snoc_of_break
    {ls : List ScriptLine}
    {l : ScriptLine}
    (hBreak : ls.any ScriptLine.isBreak = true ∨
      l.isBreak = true) :
    laterLines (ls ++ [l]) = laterLines ls ++ [l] := by
  rw [laterLines, laterLines, List.dropWhile_append]
  cases hNone : ls.any ScriptLine.isBreak with
  | true =>
      rw [if_neg]
      intro hNil
      rw [List.isEmpty_iff, List.dropWhile_eq_nil_iff] at hNil
      rcases List.any_eq_true.mp hNone with ⟨x, hMem, hBreak⟩
      simpa [hBreak] using hNil x hMem
  | false =>
      have hNil := laterLines_of_all hNone
      rw [laterLines] at hNil
      rcases hBreak with hBreak | hBreak
      · rw [hNone] at hBreak
        cases hBreak
      · rw [hNil]
        simp [hBreak]

end BranchingStory

------------------------------------------------------------
-- Tags Of Knots
------------------------------------------------------------

namespace BranchingStory

namespace Section

/- The tags of a knot; those of the root are the story's. -/
def knotTags
    (s : Section) : List String :=
  if s.name = rootName then [] else firstTags s.lines

/- The content lines of a knot with what they carry. -/
def carried
    (s : Section) : List (List String × ScriptLine) :=
  BranchingStory.carried [] (laterLines s.lines)

/- The tags that no line of a knot carries. -/
def leftOver
    (s : Section) : List String :=
  BranchingStory.leftOver [] (laterLines s.lines)

/- The section with a further line. -/
def snoc
    (s : Section)
    (l : ScriptLine) : Section :=
  ⟨s.name, s.lines ++ [l]⟩

variable {s : Section}
variable {l : ScriptLine}

/- A line that is neither content nor of tags does nothing. -/
theorem carried_snoc_idle
    (hContent : l.isContent = false)
    (hIdle : l.loneTags = []) :
    (s.snoc l).carried = s.carried ∧
      (s.snoc l).leftOver = s.leftOver ∧
      (s.snoc l).knotTags = s.knotTags := by
  have hTakes : l.takesTags = false := by
    cases hCase : l.takesTags with
    | false => rfl
    | true =>
        rw [ScriptLine.isContent_of_takesTags hCase] at hContent
        cases hContent
  have hOwn (w : List String) :
      BranchingStory.carried w [l] = [] ∧
        BranchingStory.leftOver w [l] = w := by
    simp [BranchingStory.carried, BranchingStory.leftOver,
      hTakes, hContent, hIdle]
  refine ⟨?_, ?_, ?_⟩
  · rw [carried, carried, snoc]
    by_cases hBreak : s.lines.any ScriptLine.isBreak = true ∨
        l.isBreak = true
    · rw [laterLines_snoc_of_break hBreak, carried_append,
        (hOwn _).1, List.append_nil]
    · simp only [not_or, Bool.not_eq_true] at hBreak
      rw [laterLines_of_all hBreak.1, laterLines_of_all]
      simp [hBreak.1, hBreak.2]
  · rw [leftOver, leftOver, snoc]
    by_cases hBreak : s.lines.any ScriptLine.isBreak = true ∨
        l.isBreak = true
    · rw [laterLines_snoc_of_break hBreak, leftOver_append,
        (hOwn _).2]
    · simp only [not_or, Bool.not_eq_true] at hBreak
      rw [laterLines_of_all hBreak.1, laterLines_of_all]
      simp [hBreak.1, hBreak.2]
  · rw [knotTags, knotTags, snoc, firstTags_snoc_idle hIdle]

/- A content line carries what waits for it. -/
theorem carried_snoc_content
    (hContent : l.isContent = true) :
    (s.snoc l).carried =
        s.carried ++
          [(if l.takesTags then s.leftOver else [], l)] ∧
      (s.snoc l).leftOver =
        (if l.takesTags then [] else s.leftOver) ∧
      (s.snoc l).knotTags = s.knotTags := by
  have hBreak := ScriptLine.isBreak_of_isContent hContent
  have hIdle := ScriptLine.loneTags_of_isBreak hBreak
  refine ⟨?_, ?_, ?_⟩
  · rw [carried, carried, leftOver, snoc,
      laterLines_snoc_of_break (Or.inr hBreak), carried_append]
    cases hTakes : l.takesTags <;>
      simp [BranchingStory.carried, hTakes, hContent]
  · rw [leftOver, leftOver, snoc,
      laterLines_snoc_of_break (Or.inr hBreak), leftOver_append]
    cases hTakes : l.takesTags <;>
      simp [BranchingStory.leftOver, hTakes, hIdle]
  · rw [knotTags, knotTags, snoc, firstTags_snoc_idle hIdle]

/- Tags ahead of all content of a knot are tags of the knot. -/
theorem carried_snoc_first
    (hName : s.name ≠ rootName)
    (hNone : s.lines.any ScriptLine.isBreak = false)
    (hBreak : l.isBreak = false) :
    (s.snoc l).carried = s.carried ∧
      (s.snoc l).leftOver = s.leftOver ∧
      (s.snoc l).knotTags = s.knotTags ++ l.loneTags := by
  have hAll : (s.lines ++ [l]).any ScriptLine.isBreak = false := by
    simp [hNone, hBreak]
  refine ⟨?_, ?_, ?_⟩
  · rw [carried, carried, snoc, laterLines_of_all hAll,
      laterLines_of_all hNone]
  · rw [leftOver, leftOver, snoc, laterLines_of_all hAll,
      laterLines_of_all hNone]
  · rw [knotTags, knotTags, snoc, if_neg hName, if_neg hName,
      firstTags_snoc_of_all hNone]

/- Later tags wait. -/
theorem carried_snoc_later
    (hBreak : s.lines.any ScriptLine.isBreak = true)
    (hTag : l.isTag = true) :
    (s.snoc l).carried = s.carried ∧
      (s.snoc l).leftOver = s.leftOver ++ l.tags ∧
      (s.snoc l).knotTags = s.knotTags := by
  have hKind : l.takesTags = false ∧ l.isContent = false := by
    rcases l with ⟨kind, line, text⟩
    cases kind <;>
      simp_all [ScriptLine.isTag, ScriptLine.takesTags,
        ScriptLine.isContent]
  refine ⟨?_, ?_, ?_⟩
  · rw [carried, carried, snoc,
      laterLines_snoc_of_break (Or.inl hBreak), carried_append]
    simp [BranchingStory.carried, hKind]
  · rw [leftOver, leftOver, snoc,
      laterLines_snoc_of_break (Or.inl hBreak), leftOver_append]
    simp [BranchingStory.leftOver, hKind, ScriptLine.loneTags,
      hTag]
  · rw [knotTags, knotTags, snoc,
      firstTags_snoc_of_break hBreak]

end Section

end BranchingStory

------------------------------------------------------------
-- Tags Of Entries
------------------------------------------------------------

namespace BranchingStory

open Reading

/-
  Whether an entry is on the line of the script and its tags
  are those that were waiting and those of the line.  Both
  lines of a choice have them.
-/
def Entry.HasTags
    (waiting : List String)
    (l : ScriptLine) : Entry → Prop
  | .line content =>
      content.line = l.line ∧
        content.tags = waiting ++ l.tags
  | .gather _ (some content) =>
      content.line = l.line ∧
        content.tags = waiting ++ l.tags
  | .gather _ none => waiting = [] ∧ l.takesTags = false
  | .assign _ _ n =>
      n = l.line ∧ waiting = [] ∧ l.takesTags = false
  | .choice _ c =>
      c.line = l.line ∧
        c.display.tags = waiting ++ l.tags ∧
        c.output.tags = waiting ++ l.tags

/- A line of content has the tags that are written on it. -/
theorem readGlued_tags
    (line : Nat)
    (cs : List Char)
    (target : Option (List Char))
    (tags : List String) :
    (readGlued line cs target tags).Ensures fun _ content _ =>
      content.line = line ∧ content.tags = tags := by
  intro d content d' hRun
  unfold readGlued at hRun
  rcases run_bind_ok.mp hRun with ⟨fs, d₁, _, hRun⟩
  rcases run_pure_ok.mp hRun with ⟨rfl, rfl⟩
  exact ⟨rfl, rfl⟩

theorem readLine_tags
    (line : Nat)
    (body : List Char) :
    (readLine line body).Ensures fun _ content _ =>
      content.line = line ∧
        content.tags = (splitTags body).2 := by
  intro d content d' hRun
  unfold readLine at hRun
  generalize splitTags body = parts at hRun ⊢
  rcases parts with ⟨rest, tags⟩
  rcases run_bind_ok.mp hRun with ⟨⟨cs, target⟩, d₁, _, hRun⟩
  rcases Idles.run_guarded (Idles.report _ _) hRun with
    ⟨d₂, _, _, hRun⟩
  exact readGlued_tags line cs target tags d₂ content d' hRun

/- Both lines of a choice have the tags that are on it. -/
theorem readChoice_tags
    (line : Nat)
    (sticky : Bool)
    (body : List Char) :
    (readChoice line sticky body).Ensures fun _ c _ =>
      c.line = line ∧ c.display.tags = (splitTags body).2 ∧
        c.output.tags = (splitTags body).2 := by
  intro d c d' hRun
  unfold readChoice at hRun
  generalize splitTags body = parts at hRun ⊢
  rcases parts with ⟨rest, tags⟩
  rcases run_bind_ok.mp hRun with ⟨⟨es, cs₁⟩, d₁, _, hRun⟩
  rcases run_bind_ok.mp hRun with ⟨⟨cs₂, target⟩, d₂, _, hRun⟩
  rcases run_bind_ok.mp hRun with
    ⟨⟨head, inside, tail⟩, d₃, _, hRun⟩
  rcases run_bind_ok.mp hRun with ⟨shown, d₄, _, hRun⟩
  rcases Idles.run_guarded (Idles.report _ _) hRun with
    ⟨d₅, _, _, hRun⟩
  rcases run_bind_ok.mp hRun with ⟨output, d₆, hOutput, hRun⟩
  rcases run_pure_ok.mp hRun with ⟨rfl, rfl⟩
  exact ⟨rfl, rfl,
    (readGlued_tags _ _ _ _ d₅ output d₆ hOutput).2⟩

/- The entries of finished stitches, one after the other. -/
def stitchEntries
    (ss : Table String Stitch) : List Entry :=
  ss.values.flatMap fun s => itemEntries s.body.items

/- The entries of a knot, stitch by stitch. -/
def Knot.entries
    (k : Knot) : List Entry :=
  stitchEntries k.stitches

/- The entries of a knot that is being written. -/
def OpenKnot.entries
    (k : OpenKnot) : List Entry :=
  stitchEntries k.stitches ++
    k.current.elim [] fun b => b.spine.entries

/-
  Whether a knot has the tags of a section, and what it
  consists of those that the lines of the section carry.
-/
structure KnotCarries
    (s : Section)
    (e : String × Knot) : Prop where
  name : e.1 = s.name
  tags : e.2.tags = s.knotTags
  entries : List.Forall₂ (fun p entry =>
    entry.HasTags p.1 p.2) s.carried e.2.entries

/- A content that is finished keeps its entries. -/
theorem OpenKnot.entries_closeBody
    {known : Table String Knot}
    {k : OpenKnot}
    (hSound : k.IsSound known) :
    stitchEntries k.closeBody.stitches = k.entries := by
  cases hCurrent : k.current with
  | none => simp [closeBody, entries, hCurrent]
  | some b =>
      rcases hSound.body b hCurrent with ⟨name, hName, _, hNew⟩
      simp [closeBody, entries, hCurrent, hName, stitchEntries,
        Table.values, Table.entries_insert_of_notMem hNew,
        Spine.entries_finish]

/- A content that is finished keeps the tags of its knot. -/
theorem OpenKnot.tags_closeBody
    (k : OpenKnot) :
    k.closeBody.tags = k.tags := by
  unfold closeBody
  split
  · rfl
  · dsimp only
    split <;> rfl

end BranchingStory

------------------------------------------------------------
-- Tags From Line To Line
------------------------------------------------------------

namespace BranchingStory

open Reading

namespace Builder

/-
  Whether the tags of some lines are where they belong, or are
  still waiting, while a knot is being written.
-/
structure KnotKeepsTags
    (ls : List ScriptLine)
    (b : Builder)
    (k : OpenKnot)
    (ss : List Section)
    (s : Section) : Prop where
  sections : sections ScriptLine.isKnot ls = ss ++ [s]
  finished : List.Forall₂ KnotCarries ss b.knots.entries
  name : k.name = s.name
  tags : k.tags = s.knotTags
  toKnot : b.tagsToKnot = !s.lines.any ScriptLine.isBreak
  waiting : b.waitingTags = s.leftOver
  root : s.name = rootName →
    s.lines.any ScriptLine.isBreak = true
  entries : List.Forall₂ (fun p entry =>
    entry.HasTags p.1 p.2) s.carried k.entries

/-
  Whether the tags of some lines are where they belong, or are
  still waiting.  Before the first header or content they are
  tags of the story.
-/
structure KeepsTags
    (ls : List ScriptLine)
    (b : Builder) : Prop where
  tags : b.tags = firstTags ls
  outside : b.knot = none →
    ls.any ScriptLine.isBreak = false ∧
      b.knots.entries = [] ∧ b.waitingTags = []
  inside : ∀ k, b.knot = some k →
    ls.any ScriptLine.isBreak = true ∧
      ∃ ss s, b.KnotKeepsTags ls k ss s

/- Tags are kept while those of the knot at hand are. -/
theorem KeepsTags.of_knot
    {b : Builder}
    {ls : List ScriptLine}
    {k : OpenKnot}
    (ss : List Section)
    (s : Section)
    (hKnot : b.knot = some k)
    (hTags : b.tags = firstTags ls)
    (hInside : ls.any ScriptLine.isBreak = true)
    (hAll : b.KnotKeepsTags ls k ss s) :
    b.KeepsTags ls where
  tags := hTags
  outside := by
    intro hNone
    rw [hKnot] at hNone
    cases hNone
  inside := by
    intro k' hSome
    rw [hKnot] at hSome
    cases hSome
    exact ⟨hInside, ss, s, hAll⟩

/- Whether a step keeps the tags of the next line as well. -/
def PassesTags
    (b : Builder)
    (l : ScriptLine)
    (r : Reading Builder) : Prop :=
  r.Ensures fun d b' d' => d'.IsClean →
    ∀ ls, b.IsSound d.numbered → b.KeepsTags ls →
      b'.KeepsTags (ls ++ [l])

theorem PassesTags.of_settles
    {b : Builder}
    {l : ScriptLine}
    {r : Reading Builder}
    (hSettles : ∀ n ls, r.Settles fun b' =>
      b.IsSound n → b.KeepsTags ls →
        b'.KeepsTags (ls ++ [l])) :
    b.PassesTags l r := by
  intro d b' d' hRun hClean ls
  exact ((hSettles d.numbered ls).checks d b' d' hRun).2 hClean

variable {b b' : Builder}
variable {ls : List ScriptLine}
variable {l : ScriptLine}

/- Lines without headers and content have no section. -/
theorem sections_of_no_break
    (hNone : ls.any ScriptLine.isBreak = false) :
    sections ScriptLine.isKnot ls = [] := by
  have hAll (x : ScriptLine) (hMem : x ∈ ls) :
      x.isKnot = false ∧ x.isContent = false := by
    have hBreak := List.any_eq_false.mp hNone x hMem
    rw [ScriptLine.isBreak] at hBreak
    simp only [Bool.or_eq_true, not_or,
      Bool.not_eq_true] at hBreak
    exact ⟨hBreak.1.1, hBreak.2⟩
  exact sections_eq_nil_iff.mpr
    ⟨fun x hMem => (hAll x hMem).1, fun x hMem => (hAll x hMem).2⟩

/- Declarations, and all that changes no tags, keep them. -/
theorem KeepsTags.idle
    (hKeeps : b.KeepsTags ls)
    (hBreak : l.isBreak = false)
    (hIdle : l.loneTags = []) :
    b.KeepsTags (ls ++ [l]) := by
  have hKnot : l.isKnot = false ∧ l.isContent = false := by
    rw [ScriptLine.isBreak] at hBreak
    simp only [Bool.or_eq_false_iff] at hBreak
    exact ⟨hBreak.1.1, hBreak.2⟩
  refine ⟨?_, ?_, ?_⟩
  · rw [hKeeps.tags, firstTags_snoc_idle hIdle]
  · intro hNone
    rcases hKeeps.outside hNone with ⟨hOutside, hRest⟩
    exact ⟨by simp [hOutside, hBreak], hRest⟩
  · intro k hOpen
    rcases hKeeps.inside k hOpen with ⟨hInside, ss, s, hAll⟩
    rcases Section.carried_snoc_idle (s := s) hKnot.2 hIdle with
      ⟨hCarried, hLeft, hTags⟩
    refine ⟨by simp [hInside], ss, s.snoc l, ?_⟩
    exact {
      sections := sections_snoc_line hKnot.1 hAll.sections
      finished := hAll.finished
      name := hAll.name
      tags := hAll.tags.trans hTags.symm
      toKnot := by
        rw [hAll.toKnot, Section.snoc]
        simp [hBreak]
      waiting := hAll.waiting.trans hLeft.symm
      root := by
        intro hRoot
        rw [Section.snoc, List.any_append, hAll.root hRoot]
        rfl
      entries := by
        rw [hCarried]
        exact hAll.entries }

end Builder

end BranchingStory

------------------------------------------------------------
-- Lines Of Tags And Headers
------------------------------------------------------------

namespace BranchingStory

open Reading

namespace Builder

variable {b : Builder}
variable {ls : List ScriptLine}
variable {l : ScriptLine}

/- A line of tags is neither header nor content. -/
theorem isBreak_of_isTag
    (hTag : l.isTag = true) :
    l.isBreak = false ∧ l.isKnot = false ∧
      l.loneTags = l.tags := by
  rcases l with ⟨kind, line, text⟩
  cases kind <;>
    simp_all [ScriptLine.isTag, ScriptLine.isBreak,
      ScriptLine.isKnot, ScriptLine.isStitch,
      ScriptLine.isContent, ScriptLine.loneTags]

/- A line of tags goes to the story, to its knot, or waits. -/
theorem addTags_keepsTags
    (hTag : l.isTag = true)
    (hKeeps : b.KeepsTags ls) :
    (b.addTags l.text).KeepsTags (ls ++ [l]) := by
  rcases isBreak_of_isTag hTag with ⟨hBreak, hKnot, hLone⟩
  have hTags : (splitTags l.text.toList).2 = l.tags := rfl
  unfold addTags
  generalize splitTags l.text.toList = parts at hTags ⊢
  rcases parts with ⟨rest, tags⟩
  simp only at hTags
  subst hTags
  dsimp only
  cases hOpen : b.knot with
  | none =>
      rcases hKeeps.outside hOpen with ⟨hOutside, hRest⟩
      refine ⟨?_, ?_, ?_⟩
      · rw [firstTags_snoc_of_all hOutside, ← hKeeps.tags, hLone]
      · intro _
        exact ⟨by simp [hOutside, hBreak], hRest⟩
      · intro k hSome
        cases hSome
  | some k =>
      rcases hKeeps.inside k hOpen with ⟨hInside, ss, s, hAll⟩
      have hTags : b.tags = firstTags (ls ++ [l]) := by
        rw [hKeeps.tags, firstTags_snoc_of_break hInside]
      have hInside' :
          (ls ++ [l]).any ScriptLine.isBreak = true := by
        simp [hInside]
      have hSections := sections_snoc_line hKnot hAll.sections
      have hNoBreak :
          (s.snoc l).lines.any ScriptLine.isBreak =
            s.lines.any ScriptLine.isBreak := by
        simp [Section.snoc, hBreak]
      dsimp only
      split
      · next hToKnot =>
          -- Nothing of the knot has been written yet.
          rw [hAll.toKnot, Bool.not_eq_true'] at hToKnot
          have hName : s.name ≠ rootName := by
            intro hRoot
            rw [hAll.root hRoot] at hToKnot
            cases hToKnot
          rcases Section.carried_snoc_first hName hToKnot
              hBreak with
            ⟨hCarried, hLeft, hKnotTags⟩
          refine .of_knot ss (s.snoc l) rfl hTags hInside' ?_
          exact {
            sections := hSections
            finished := hAll.finished
            name := hAll.name
            tags := by
              rw [hKnotTags, hLone, hAll.tags]
            toKnot := by rw [hNoBreak, hAll.toKnot]
            waiting := hAll.waiting.trans hLeft.symm
            root := fun hRoot => absurd hRoot hName
            entries := by
              rw [hCarried]
              exact hAll.entries }
      · next hLater =>
          rw [hAll.toKnot, Bool.not_eq_true',
            Bool.not_eq_false] at hLater
          rcases Section.carried_snoc_later hLater hTag with
            ⟨hCarried, hLeft, hKnotTags⟩
          refine .of_knot ss (s.snoc l) rfl hTags hInside' ?_
          exact {
            sections := hSections
            finished := hAll.finished
            name := hAll.name
            tags := hAll.tags.trans hKnotTags.symm
            toKnot := by rw [hNoBreak, hAll.toKnot]
            waiting := by rw [hLeft, ← hAll.waiting]
            root := fun _ => by rw [hNoBreak, hLater]
            entries := by
              rw [hCarried]
              exact hAll.entries }

/- A knot that is finished has the tags of its section. -/
theorem closeKnot_keepsTags
    (n : Nat)
    (ls : List ScriptLine)
    (b : Builder) :
    b.closeKnot.Settles fun b' =>
      b.IsSound n → b.KeepsTags ls →
        List.Forall₂ KnotCarries
            (sections ScriptLine.isKnot ls) b'.knots.entries ∧
          b'.tags = firstTags ls ∧ b'.waitingTags = [] := by
  unfold closeKnot
  split
  · next hNone =>
      refine Settles.pure fun _ hKeeps => ?_
      rcases hKeeps.outside hNone with ⟨hOutside, hEmpty, _⟩
      rw [sections_of_no_break hOutside, hEmpty]
      exact ⟨List.Forall₂.nil, hKeeps.tags, rfl⟩
  · next k hKnot =>
      apply Settles.refused rfl k.closeBody.line
      refine Settles.bind (reportEmptyStitches_settles _ _)
        fun _ => ?_
      refine Settles.pure fun _ _ hSound hKeeps => ?_
      have hOpen := hSound.knot k hKnot
      have hClosed := OpenKnot.closeBody_isClosed hOpen
      have hFirst : k.closeBody.repeated = false :=
        hClosed.repeated.trans hOpen.first
      have hNew : k.closeBody.name ∉ b.knots.keys := by
        rw [hClosed.name]
        exact hOpen.isNew
      rcases hKeeps.inside k hKnot with ⟨_, ss, s, hAll⟩
      refine ⟨?_, hKeeps.tags, rfl⟩
      simp only [hFirst, Bool.false_eq_true, if_false,
        hAll.sections, Table.entries_insert_of_notMem hNew]
      refine List.rel_append hAll.finished
        (List.Forall₂.cons ?_ List.Forall₂.nil)
      exact {
        name := hClosed.name.trans hAll.name
        tags := k.tags_closeBody.trans hAll.tags
        entries := by
          change List.Forall₂ _ _
            (stitchEntries k.closeBody.stitches)
          rw [OpenKnot.entries_closeBody hOpen]
          exact hAll.entries }

/- A header of a knot drops what is waiting. -/
theorem addKnot_keepsTags
    (n : Nat)
    (ls : List ScriptLine)
    (hKnot : l.isKnot = true)
    (hName : l.text ≠ rootName)
    (b : Builder) :
    (b.addKnot l.line l.text).Settles fun b' =>
      b.IsSound n → b.KeepsTags ls →
        b'.KeepsTags (ls ++ [l]) := by
  unfold addKnot
  refine Settles.bind (b.closeKnot_keepsTags n ls) fun b' => ?_
  dsimp only
  have hBreak : l.isBreak = true := by
    simp [ScriptLine.isBreak, hKnot]
  cases hLookup : b'.knots.lookup l.text with
  | some k =>
      refine Settles.bind
        (Settles.error (Q := fun _ => False) rfl l.line)
        fun _ => ?_
      exact Settles.pure fun hFalse => hFalse.elim
  | none =>
      refine Settles.pure fun hClosed hSound hKeeps => ?_
      rcases hClosed hSound hKeeps with
        ⟨hFinished, hTags, hWaiting⟩
      have hFirst := firstTags_snoc_idle
        (ScriptLine.loneTags_of_isBreak hBreak) ls
      refine .of_knot (sections ScriptLine.isKnot ls)
        ⟨l.text, []⟩ rfl (hTags.trans hFirst.symm)
        (by simp [hBreak]) ?_
      exact {
        sections := sections_snoc_header hKnot
        finished := hFinished
        name := rfl
        tags := by simp [Section.knotTags, hName, firstTags,
          tagsIn, OpenKnot.empty]
        toKnot := rfl
        waiting := hWaiting
        root := fun hRoot => absurd hRoot hName
        entries := List.Forall₂.nil }

/- A header of a stitch leaves what is waiting alone. -/
theorem addStitch_keepsTags
    (n : Nat)
    (ls : List ScriptLine)
    (hStitch : l.isStitch = true)
    (hLine : l.isKnot = false)
    (hContent : l.isContent = false)
    (b : Builder) :
    (b.addStitch l.line l.text).Settles fun b' =>
      b.IsSound n → b.KeepsTags ls →
        b'.KeepsTags (ls ++ [l]) := by
  have hBreak : l.isBreak = true := by
    simp [ScriptLine.isBreak, hStitch]
  have hIdle := ScriptLine.loneTags_of_isBreak hBreak
  unfold addStitch
  split
  · exact Settles.error_pure rfl l.line b
  · next k hKnot =>
      split
      · exact Settles.error_pure rfl l.line _
      · refine Settles.pure fun hSound hKeeps => ?_
        have hOpen := hSound.knot k hKnot
        have hClosed := OpenKnot.closeBody_isClosed hOpen
        rcases hKeeps.inside k hKnot with
          ⟨hInside, ss, s, hAll⟩
        rcases Section.carried_snoc_idle (s := s) hContent
            hIdle with
          ⟨hCarried, hLeft, hTags⟩
        have hBroken :
            (s.snoc l).lines.any ScriptLine.isBreak = true := by
          simp [Section.snoc, hBreak]
        have hFirst := firstTags_snoc_idle hIdle ls
        refine .of_knot ss (s.snoc l) rfl
          (hKeeps.tags.trans hFirst.symm) (by simp [hBreak]) ?_
        exact {
          sections := sections_snoc_line hLine hAll.sections
          finished := hAll.finished
          name := hClosed.name.trans hAll.name
          tags := by
            rw [hTags, ← hAll.tags]
            exact k.tags_closeBody
          toKnot := by rw [hBroken]; rfl
          waiting := hAll.waiting.trans hLeft.symm
          root := fun _ => hBroken
          entries := by
            rw [hCarried]
            have hSame := OpenKnot.entries_closeBody hOpen
            simpa [OpenKnot.entries, OpenKnot.openBody, hSame]
              using hAll.entries }

end Builder

end BranchingStory

------------------------------------------------------------
-- Lines Of Content
------------------------------------------------------------

namespace BranchingStory

open Reading

namespace Builder

variable {b : Builder}
variable {ls : List ScriptLine}
variable {l : ScriptLine}

/-
  Whether the content at hand takes up a content line next: the
  section of the line without it has been followed, and its
  tags are where they belong, or are waiting.
-/
structure AwaitsTags
    (ls : List ScriptLine)
    (l : ScriptLine)
    (b : Builder)
    (k : OpenKnot)
    (body : OpenBody)
    (ss : List Section)
    (s : Section) : Prop where
  story : b.tags = firstTags ls
  sections :
    sections ScriptLine.isKnot (ls ++ [l]) = ss ++ [s.snoc l]
  finished : List.Forall₂ KnotCarries ss b.knots.entries
  name : k.name = s.name
  tags : k.tags = s.knotTags
  toKnot : b.tagsToKnot = false
  waiting : b.waitingTags = s.leftOver
  entries : List.Forall₂ (fun p entry =>
      entry.HasTags p.1 p.2) s.carried
    (stitchEntries k.stitches ++ body.spine.entries)

/- A content line finds a content that takes it up. -/
theorem ensureBody_awaitsTags
    {b₁ : Builder}
    {k : OpenKnot}
    {body : OpenBody}
    {line : Nat}
    (hKeeps : b.KeepsTags ls)
    (hContent : l.isContent = true)
    (hEnsure : b.ensureBody line = (b₁, k, body)) :
    ∃ ss s, b₁.AwaitsTags ls l k body ss s := by
  have hLine := (ScriptLine.not_header_of_isContent hContent).1
  cases finds_of_ensureBody hEnsure with
  | nothing hKnot =>
      -- The line opens the root knot and its root stitch.
      rcases hKeeps.outside hKnot with
        ⟨hOutside, hEmpty, hWaiting⟩
      refine ⟨[], ⟨rootName, ls⟩, ?_⟩
      exact {
        story := hKeeps.tags
        sections := sections_snoc_first hLine hContent
          (sections_of_no_break hOutside)
        finished := by
          rw [hEmpty]
          exact List.Forall₂.nil
        name := rfl
        tags := rfl
        toKnot := rfl
        waiting := by
          rw [Section.leftOver, laterLines_of_all hOutside]
          exact hWaiting
        entries := by
          rw [Section.carried, laterLines_of_all hOutside]
          exact List.Forall₂.nil }
  | knot hKnot hCurrent =>
      rcases hKeeps.inside _ hKnot with ⟨_, ss, s, hAll⟩
      have hEntries := hAll.entries
      rw [OpenKnot.entries, hCurrent] at hEntries
      refine ⟨ss, s, hKeeps.tags,
        sections_snoc_line hLine hAll.sections, hAll.finished,
        hAll.name, hAll.tags, rfl, hAll.waiting, ?_⟩
      simpa using hEntries
  | content hKnot hCurrent =>
      rcases hKeeps.inside _ hKnot with ⟨_, ss, s, hAll⟩
      have hEntries := hAll.entries
      rw [OpenKnot.entries, hCurrent] at hEntries
      exact ⟨ss, s, hKeeps.tags,
        sections_snoc_line hLine hAll.sections, hAll.finished,
        hAll.name, hAll.tags, rfl, hAll.waiting, hEntries⟩

/- An entry that takes what is waiting keeps the tags. -/
theorem putBody_keepsTags
    {k : OpenKnot}
    {body : OpenBody}
    {spine : Spine}
    {e : Entry}
    {ss : List Section}
    {s : Section}
    {waiting : List String}
    (next : Nat)
    (hContent : l.isContent = true)
    (hAwaits : b.AwaitsTags ls l k body ss s)
    (hWaiting :
      waiting = if l.takesTags then [] else b.waitingTags)
    (hTags :
      e.HasTags (if l.takesTags then b.waitingTags else []) l)
    (hSpine : spine.entries = body.spine.entries ++ [e]) :
    ({ b.putBody k { body with spine := spine } with
        nextId := next
        waitingTags := waiting } : Builder).KeepsTags
      (ls ++ [l]) := by
  have hBreak := ScriptLine.isBreak_of_isContent hContent
  have hIdle := ScriptLine.loneTags_of_isBreak hBreak
  have hFirst := firstTags_snoc_idle hIdle ls
  have hBroken :
      (s.snoc l).lines.any ScriptLine.isBreak = true := by
    simp [Section.snoc, hBreak]
  rcases Section.carried_snoc_content (s := s) hContent with
    ⟨hCarried, hLeft, hKnotTags⟩
  refine .of_knot ss (s.snoc l) rfl
    (hAwaits.story.trans hFirst.symm) (by simp [hBreak]) ?_
  exact {
    sections := hAwaits.sections
    finished := hAwaits.finished
    name := hAwaits.name
    tags := hAwaits.tags.trans hKnotTags.symm
    toKnot := by
      rw [hBroken]
      exact hAwaits.toKnot
    waiting := by rw [hLeft, ← hAwaits.waiting, ← hWaiting]
    root := fun _ => hBroken
    entries := by
      rw [hCarried, ← hAwaits.waiting]
      change List.Forall₂ _ _
        (stitchEntries k.stitches ++ spine.entries)
      rw [hSpine, ← List.append_assoc]
      exact List.rel_append hAwaits.entries
        (List.Forall₂.cons hTags List.Forall₂.nil) }

/- Text or a divert takes what is waiting. -/
theorem addLine_passesTags
    (b : Builder)
    (hKind : l.kind = .text ∨ l.kind = .divert) :
    b.PassesTags l (b.addLine l.line l.text) := by
  intro d b' d' hRun _ ls _ hKeeps
  have hTakes : l.takesTags = true := by
    rw [ScriptLine.takesTags]
    rcases hKind with hKind | hKind <;> rw [hKind]
  have hContent := ScriptLine.isContent_of_takesTags hTakes
  unfold addLine at hRun
  generalize hEnsure : b.ensureBody l.line = opened at hRun
  rcases opened with ⟨b₁, k, body⟩
  rcases run_bind_ok.mp hRun with ⟨content, d₁, hLine, hRun⟩
  rcases run_pure_ok.mp hRun with ⟨rfl, rfl⟩
  rcases readLine_tags _ _ d content _ hLine with ⟨hAt, hTags⟩
  rcases ensureBody_awaitsTags hKeeps hContent hEnsure with
    ⟨ss, s, hAwaits⟩
  refine putBody_keepsTags
    (e := .line (content.withTags b₁.waitingTags)) _ hContent
    hAwaits ?_ ?_ ?_
  · rw [hTakes]
    rfl
  · rw [hTakes]
    exact ⟨hAt, congrArg (b₁.waitingTags ++ ·) hTags⟩
  · rw [Spine.entries_append, Item.entries]

/- An assignment leaves what is waiting alone. -/
theorem addAssignment_passesTags
    (b : Builder)
    (hKind : l.kind = .assignment) :
    b.PassesTags l (b.addAssignment l.line l.text) := by
  intro d b' d' hRun hClean ls _ hKeeps
  have hTakes : l.takesTags = false := by
    rw [ScriptLine.takesTags, hKind]
  have hContent : l.isContent = true := by
    rw [ScriptLine.isContent, hKind]
  unfold addAssignment at hRun
  generalize hEnsure : b.ensureBody l.line = opened at hRun
  rcases opened with ⟨b₁, k, body⟩
  rcases run_bind_ok.mp hRun with ⟨r, d₁, hRead, hRun⟩
  have hSettles := readAssignment_settles l.line l.text.toList
  have hSome := (hSettles.checks d r d₁ hRead).2
  rcases ensureBody_awaitsTags hKeeps hContent hEnsure with
    ⟨ss, s, hAwaits⟩
  cases r with
  | none =>
      rcases run_pure_ok.mp hRun with ⟨rfl, rfl⟩
      cases hSome hClean
  | some p =>
      rcases p with ⟨name, value⟩
      rcases run_pure_ok.mp hRun with ⟨rfl, rfl⟩
      refine putBody_keepsTags (e := .assign name value l.line)
        _ hContent hAwaits ?_ ?_ ?_
      · rw [hTakes]
        rfl
      · rw [hTakes]
        exact ⟨rfl, rfl, hTakes⟩
      · rw [Spine.entries_append, Item.entries]

/- Both lines of a choice take what is waiting. -/
theorem addChoice_passesTags
    (b : Builder)
    {depth : Nat}
    {sticky : Bool}
    (hKind : l.kind = .choice depth sticky)
    (hDepth : 0 < depth) :
    b.PassesTags l
      (b.addChoice l.line depth sticky l.text) := by
  intro d b' d' hRun hClean ls _ hKeeps
  have hTakes : l.takesTags = true := by
    rw [ScriptLine.takesTags, hKind]
  have hContent := ScriptLine.isContent_of_takesTags hTakes
  unfold addChoice at hRun
  generalize hEnsure : b.ensureBody l.line = opened at hRun
  rcases opened with ⟨b₁, k, body⟩
  rcases run_bind_ok.mp hRun with ⟨depth', d₁, hClamp, hRun⟩
  rcases run_bind_ok.mp hRun with ⟨c, d₂, hRead, hRun⟩
  rcases readChoice_tags _ _ _ d₁ c d₂ hRead with
    ⟨hAt, hShown, hTold⟩
  have hTags (n : Nat) :
      Entry.HasTags b₁.waitingTags l
        (.choice n (c.withTags b₁.waitingTags)) :=
    ⟨hAt, congrArg (b₁.waitingTags ++ ·) hShown,
      congrArg (b₁.waitingTags ++ ·) hTold⟩
  rcases ensureBody_awaitsTags hKeeps hContent hEnsure with
    ⟨ss, s, hAwaits⟩
  have hRest := readChoice_writes _ _ _ d₁ c d₂ hRead
  have hSettles :=
    clampDepth_settles l.line depth body.spine.depth
  have hLevel := (hSettles.checks d depth' d₁ hClamp).2
  dsimp only at hRun
  split at hRun
  · rcases run_pure_ok.mp hRun with ⟨rfl, rfl⟩
    refine putBody_keepsTags _ hContent hAwaits ?_ ?_
      (Spine.entries_openSet _ _ _ _ _ _)
    · rw [hTakes]
      rfl
    · rw [hTakes]
      exact hTags _
  · next hShallow =>
      rcases run_pure_ok.mp hRun with ⟨rfl, rfl⟩
      rcases hLevel (hRest.1.precedes.isClean hClean) with
        ⟨rfl, _⟩
      have hOpen : 0 < (body.spine.closeTo depth').depth := by
        rw [Spine.depth_closeTo]
        omega
      have hSpine :=
        Spine.entries_nextBranch (b₁.nextId + 1) b₁.nextId
          (c.withTags b₁.waitingTags) hOpen
      rw [Spine.entries_closeTo] at hSpine
      refine putBody_keepsTags _ hContent hAwaits ?_ ?_ hSpine
      · rw [hTakes]
        rfl
      · rw [hTakes]
        exact hTags _

/- A gather with text takes what is waiting. -/
theorem addGather_passesTags
    (b : Builder)
    {depth : Nat}
    (hKind : l.kind = .gather depth) :
    b.PassesTags l (b.addGather l.line depth l.text) := by
  intro d b' d' hRun _ ls _ hKeeps
  have hContent : l.isContent = true := by
    rw [ScriptLine.isContent, hKind]
  have hTakes : l.takesTags = !l.text.isEmpty := by
    rw [ScriptLine.takesTags, hKind]
  unfold addGather at hRun
  generalize hEnsure : b.ensureBody l.line = opened at hRun
  rcases opened with ⟨b₁, k, body⟩
  rcases ensureBody_awaitsTags hKeeps hContent hEnsure with
    ⟨ss, s, hAwaits⟩
  rcases run_bind_ok.mp hRun with ⟨depth', d₁, _, hRun⟩
  dsimp only at hRun
  split at hRun
  · next hEmpty =>
      rcases run_pure_ok.mp hRun with ⟨rfl, rfl⟩
      rw [hEmpty, Bool.not_true] at hTakes
      refine putBody_keepsTags (e := .gather depth' none) _
        hContent hAwaits ?_ ?_ ?_
      · rw [hTakes]
        rfl
      · rw [hTakes]
        exact ⟨rfl, hTakes⟩
      · rw [Spine.entries_append, Spine.entries_closeTo,
          Item.entries]
  · next hText =>
      rcases run_bind_ok.mp hRun with
        ⟨content, d₂, hRead, hRun⟩
      rcases run_pure_ok.mp hRun with ⟨rfl, rfl⟩
      rcases readLine_tags _ _ d₁ content _ hRead with
        ⟨hAt, hTags⟩
      rw [Bool.not_eq_true] at hText
      rw [hText, Bool.not_false] at hTakes
      refine putBody_keepsTags
        (e := .gather depth'
          (some (content.withTags b₁.waitingTags))) _
        hContent hAwaits ?_ ?_ ?_
      · rw [hTakes]
        rfl
      · rw [hTakes]
        exact ⟨hAt, congrArg (b₁.waitingTags ++ ·) hTags⟩
      · rw [Spine.entries_append, Spine.entries_closeTo,
          Item.entries]

/- A declaration changes no tags. -/
theorem addDeclaration_keepsTags
    (line : Nat)
    (constant : Bool)
    (text : String)
    (b : Builder) :
    (b.addDeclaration line constant text).Settles fun b' =>
      ∀ ls, b.KeepsTags ls → b'.KeepsTags ls := by
  unfold addDeclaration
  have hSame (ls : List ScriptLine) (hKeeps : b.KeepsTags ls)
      (vars : Table String Declaration) :
      ({ b with vars := vars } : Builder).KeepsTags ls := by
    refine ⟨hKeeps.tags, hKeeps.outside, ?_⟩
    intro k hKnot
    rcases hKeeps.inside k hKnot with ⟨hInside, ss, s, hAll⟩
    exact ⟨hInside, ss, s, { hAll with }⟩
  split
  · exact Settles.error_pure rfl line b
  · refine Settles.bind
      (Settles.of_idles (readDeclaration_idles line _))
      fun r => ?_
    cases r with
    | none => exact Settles.pure fun _ ls hKeeps => hKeeps
    | some p =>
        dsimp only
        split
        · exact Settles.error_pure rfl line b
        · exact Settles.pure fun _ ls hKeeps =>
            hSame ls hKeeps _

/- Every line keeps the tags where they belong. -/
theorem add_passesTags
    (b : Builder)
    (hProper : l.IsProper) :
    b.PassesTags l (b.add l) := by
  unfold add
  cases hKind : l.kind with
  | text => exact addLine_passesTags b (Or.inl hKind)
  | divert => exact addLine_passesTags b (Or.inr hKind)
  | choice depth sticky =>
      exact addChoice_passesTags b hKind
        (hProper.depth depth sticky hKind)
  | gather depth => exact addGather_passesTags b hKind
  | assignment => exact addAssignment_passesTags b hKind
  | knot =>
      apply PassesTags.of_settles
      intro n ls
      exact addKnot_keepsTags n ls
        (by simp [ScriptLine.isKnot, hKind])
        (hProper.name (Or.inl hKind)).2 b
  | stitch =>
      apply PassesTags.of_settles
      intro n ls
      exact addStitch_keepsTags n ls
        (by simp [ScriptLine.isStitch, hKind])
        (by simp [ScriptLine.isKnot, hKind])
        (by simp [ScriptLine.isContent, hKind]) b
  | declaration constant =>
      apply PassesTags.of_settles
      intro n ls
      refine (addDeclaration_keepsTags l.line constant l.text
        b).mono fun b' hSame _ hKeeps => ?_
      exact (hSame ls hKeeps).idle
        (by simp [ScriptLine.isBreak, ScriptLine.isKnot,
          ScriptLine.isStitch, ScriptLine.isContent, hKind])
        (by simp [ScriptLine.loneTags, ScriptLine.isTag, hKind])
  | tag =>
      apply PassesTags.of_settles
      intro n ls
      refine Settles.pure fun _ hKeeps => ?_
      exact addTags_keepsTags
        (by simp [ScriptLine.isTag, hKind]) hKeeps

/- All lines together keep the tags where they belong. -/
theorem foldlM_add_passesTags
    (ls : List ScriptLine)
    (hProper : ∀ l ∈ ls, l.IsProper)
    (b : Builder) :
    (ls.foldlM Builder.add b).Ensures fun d b' d' =>
      d'.IsClean → ∀ before,
        b.IsSound d.numbered → b.KeepsTags before →
          b'.IsSound d'.numbered ∧
            b'.KeepsTags (before ++ ls) := by
  induction ls generalizing b with
  | nil =>
      refine Ensures.pure fun d _ before hSound hKeeps => ?_
      rw [List.append_nil]
      exact ⟨hSound, hKeeps⟩
  | cons l ls ih =>
      intro d b' d' hRun hClean before hSound hKeeps
      rcases run_bind_ok.mp hRun with ⟨b₁, d₁, hFirst, hRest⟩
      rw [List.forall_mem_cons] at hProper
      have hAdds :=
        foldlM_add_keeps ls hProper.2 b₁ d₁ b' d' hRest
      have hClean₁ := hAdds.1.isClean hClean
      have hLater := add_keeps b hProper.1 d b₁ d₁ hFirst
      have hSound₁ := (hLater.2.2 hClean₁ hSound).1
      have hKeeps₁ :=
        add_passesTags b hProper.1 d b₁ d₁ hFirst hClean₁ before
          hSound hKeeps
      rw [List.append_cons]
      exact ih hProper.2 b₁ d₁ b' d' hRest hClean _ hSound₁
        hKeeps₁

/- Nothing built keeps the tags of no lines. -/
theorem keepsTags_empty :
    empty.KeepsTags [] where
  tags := rfl
  outside := fun _ => ⟨rfl, rfl, rfl⟩
  inside := by
    intro k hKnot
    cases hKnot

end Builder

end BranchingStory

------------------------------------------------------------
-- Where A Tag Goes
------------------------------------------------------------

namespace BranchingStory

/- There is an entry for each content line. -/
theorem length_carried
    (waiting : List String)
    (ls : List ScriptLine) :
    (carried waiting ls).length =
      ls.countP ScriptLine.isContent := by
  induction ls generalizing waiting with
  | nil => rfl
  | cons l ls ih =>
      rw [carried, List.countP_cons]
      cases hTakes : l.takesTags with
      | true =>
          simp [ih, ScriptLine.isContent_of_takesTags hTakes]
      | false => cases hContent : l.isContent <;> simp [ih]

/- Ahead of the later lines there is no content. -/
theorem countP_laterLines
    (ls : List ScriptLine) :
    (laterLines ls).countP ScriptLine.isContent =
      ls.countP ScriptLine.isContent := by
  induction ls with
  | nil => rfl
  | cons l ls ih =>
      rw [laterLines, List.dropWhile_cons]
      cases hBreak : l.isBreak with
      | true => rfl
      | false =>
          have hContent : l.isContent = false := by
            rw [ScriptLine.isBreak] at hBreak
            simp only [Bool.or_eq_false_iff] at hBreak
            exact hBreak.2
          simp only [Bool.not_false, if_true,
            List.countP_cons, hContent]
          exact ih

/- Lines that take no tags leave all of them waiting. -/
theorem leftOver_of_none
    {ls : List ScriptLine}
    (hNone : ∀ x ∈ ls, x.takesTags = false)
    (waiting : List String) :
    leftOver waiting ls = waiting ++ tagsIn ls := by
  induction ls generalizing waiting with
  | nil => simp [leftOver, tagsIn]
  | cons l ls ih =>
      rw [List.forall_mem_cons] at hNone
      rw [leftOver, hNone.1]
      refine (ih hNone.2 _).trans ?_
      rw [tagsIn, tagsIn, List.flatMap_cons, List.append_assoc]

/- The lines after a header or content are later lines. -/
theorem laterLines_append
    {ls : List ScriptLine}
    (hBreak : ls.any ScriptLine.isBreak = true)
    (ms : List ScriptLine) :
    laterLines (ls ++ ms) = laterLines ls ++ ms := by
  rw [laterLines, laterLines, List.dropWhile_append, if_neg]
  intro hNil
  rw [List.isEmpty_iff, List.dropWhile_eq_nil_iff] at hNil
  rcases List.any_eq_true.mp hBreak with ⟨x, hMem, hBreak⟩
  simpa [hBreak] using hNil x hMem

/- Tags ahead of all headers and content are first tags. -/
theorem tags_infix_firstTags
    {before after : List ScriptLine}
    {t : ScriptLine}
    (hTag : t.isTag = true)
    (hNone : before.any ScriptLine.isBreak = false) :
    t.tags <:+: firstTags (before ++ t :: after) := by
  have hWhile :
      (before ++ t :: after).takeWhile (fun l => !l.isBreak) =
        before ++ t :: after.takeWhile fun l => !l.isBreak := by
    rw [List.takeWhile_append_of_pos]
    · rw [List.takeWhile_cons_of_pos]
      rw [(Builder.isBreak_of_isTag hTag).1]
      rfl
    · intro x hMem
      simpa using List.any_eq_false.mp hNone x hMem
  refine ⟨tagsIn before,
    tagsIn (after.takeWhile fun l => !l.isBreak), ?_⟩
  rw [firstTags, hWhile, tagsIn, tagsIn, tagsIn,
    List.flatMap_append, List.flatMap_cons,
    (Builder.isBreak_of_isTag hTag).2.2, List.append_assoc]

/-
  Whether no tag of a section is lost but those at its end.
  The tags of a line are tags of the knot (or of the story, if
  the knot is the root), or of the next line that takes tags;
  or nothing takes tags any more in the section.
-/
def LosesNoTag
    (s : Section)
    (e : String × Knot) : Prop :=
  ∀ before t after, s.lines = before ++ t :: after →
    t.isTag = true →
      before.any ScriptLine.isBreak = false ∧
          (s.name ≠ rootName → t.tags <:+: e.2.tags) ∨
        (∃ between l rest entry tags tags',
          after = between ++ l :: rest ∧
            (∀ x ∈ between, x.takesTags = false) ∧
            l.takesTags = true ∧
            e.2.entries[(before ++ t :: between).countP
              ScriptLine.isContent]? = some entry ∧
            entry.HasTags (tags ++ t.tags ++ tags') l) ∨
        (∀ x ∈ after, x.takesTags = false) ∧
          t.tags <:+: s.leftOver

/- A tag line takes no tags itself. -/
theorem takesTags_of_isTag
    {t : ScriptLine}
    (hTag : t.isTag = true) :
    t.takesTags = false := by
  rcases t with ⟨kind, line, text⟩
  cases kind <;>
    simp_all [ScriptLine.isTag, ScriptLine.takesTags]

/- Its tags wait as long as no line takes them. -/
theorem leftOver_append_tag
    {t : ScriptLine}
    {between : List ScriptLine}
    (hTag : t.isTag = true)
    (hNone : ∀ x ∈ between, x.takesTags = false)
    (ls : List ScriptLine) :
    leftOver [] (ls ++ t :: between) =
      leftOver [] ls ++ t.tags ++ tagsIn between := by
  rw [leftOver_append, leftOver, takesTags_of_isTag hTag,
    (Builder.isBreak_of_isTag hTag).2.2]
  exact leftOver_of_none hNone _

/- The next line that takes tags takes those of a tag line. -/
theorem carried_after_tag
    {s : Section}
    {before between rest : List ScriptLine}
    {t l : ScriptLine}
    (hLines : s.lines = before ++ t :: (between ++ l :: rest))
    (hBreak : before.any ScriptLine.isBreak = true)
    (hTag : t.isTag = true)
    (hNone : ∀ x ∈ between, x.takesTags = false)
    (hTakes : l.takesTags = true) :
    s.carried[(before ++ t :: between).countP
        ScriptLine.isContent]? =
      some (leftOver [] (laterLines before) ++ t.tags ++
        tagsIn between, l) := by
  have hCarried :
      s.carried =
        carried [] (laterLines before ++ t :: between) ++
          (leftOver [] (laterLines before) ++ t.tags ++
            tagsIn between, l) :: carried [] rest := by
    rw [Section.carried, hLines, laterLines_append hBreak,
      ← List.cons_append, ← List.append_assoc, carried_append,
      leftOver_append_tag hTag hNone, carried, hTakes]
    rfl
  have hLength :
      (carried [] (laterLines before ++ t :: between)).length =
        (before ++ t :: between).countP
          ScriptLine.isContent := by
    rw [length_carried, List.countP_append, countP_laterLines,
      List.countP_append]
  rw [hCarried, ← hLength,
    List.getElem?_append_right (Nat.le_refl _), Nat.sub_self]
  rfl

/- What a line of a section carries, its entry in the knot has. -/
theorem KnotCarries.exists_entry
    {s : Section}
    {e : String × Knot}
    (hCarries : KnotCarries s e)
    {i : Nat}
    {tags : List String}
    {l : ScriptLine}
    (hAt : s.carried[i]? = some (tags, l)) :
    ∃ entry, e.2.entries[i]? = some entry ∧
      entry.HasTags tags l := by
  rcases List.getElem?_eq_some_iff.mp hAt with ⟨hLess, hSame⟩
  have hLess' : i < e.2.entries.length :=
    hCarries.entries.length_eq ▸ hLess
  have hTags := hCarries.entries.get hLess hLess'
  rw [List.get_eq_getElem, hSame] at hTags
  exact ⟨_, List.getElem?_eq_getElem hLess', hTags⟩

/- A knot that carries the tags of a section loses none. -/
theorem KnotCarries.losesNoTag
    {s : Section}
    {e : String × Knot}
    (hCarries : KnotCarries s e) :
    LosesNoTag s e := by
  intro before t after hLines hTag
  cases hBreak : before.any ScriptLine.isBreak with
  | false =>
      refine Or.inl ⟨rfl, fun hName => ?_⟩
      rw [hCarries.tags, Section.knotTags, if_neg hName, hLines]
      exact tags_infix_firstTags hTag hBreak
  | true =>
      cases hFind : after.find? ScriptLine.takesTags with
      | none =>
          have hNone : ∀ x ∈ after, x.takesTags = false := by
            simpa using hFind
          refine Or.inr (Or.inr ⟨hNone, ?_⟩)
          rw [Section.leftOver, hLines, laterLines_append hBreak,
            leftOver_append_tag hTag hNone]
          exact ⟨_, _, rfl⟩
      | some l =>
          rcases List.find?_eq_some_iff_append.mp hFind with
            ⟨hTakes, between, rest, rfl, hBetween⟩
          have hNone : ∀ x ∈ between, x.takesTags = false := by
            simpa using hBetween
          rcases hCarries.exists_entry
              (carried_after_tag hLines hBreak hTag
                hNone hTakes) with
            ⟨entry, hEntry, hHas⟩
          exact Or.inr (Or.inl ⟨between, l, rest, entry, _, _,
            rfl, hNone, hTakes, hEntry, hHas⟩)

end BranchingStory

------------------------------------------------------------
-- Scripts
------------------------------------------------------------

namespace BranchingStory

open Reading

/- The outline of lines has the tags of its lines. -/
theorem buildOutline_keepsTags
    {ls : List ScriptLine}
    (hProper : ∀ l ∈ ls, l.IsProper)
    {d d' : Draft}
    {o : Outline}
    (hBuild : (buildOutline ls).run d = .ok (some o, d'))
    (hClean : d'.IsClean) :
    o.tags = firstTags ls ∧
      List.Forall₂ KnotCarries
        (sections ScriptLine.isKnot ls) o.knots.entries := by
  rcases buildOutline_ok hBuild with
    ⟨b, d₁, b', start, hAll, hClose, _, rfl⟩
  have hSettles := b.closeKnot_keepsTags d₁.numbered ls
  have hAdds := hSettles.idles d₁ b' d' hClose
  rcases
      Builder.foldlM_add_passesTags ls hProper .empty d b d₁
        hAll (hAdds.1.isClean hClean) []
        (Builder.isSound_empty_of _)
        Builder.keepsTags_empty with
    ⟨hSound, hKeeps⟩
  rcases
      (hSettles.checks d₁ b' d' hClose).2 hClean hSound
        hKeeps with
    ⟨hKnots, hTags, _⟩
  exact ⟨hTags, hKnots⟩

/-
  Where the tags of a script that can be read are.  Those ahead
  of all headers and all content are the tags of the story.
  The others are in the section of a knot, and all tags of a
  section are, in their order, those of the knot, those that
  its content lines carry ahead of their own tags, and those
  that are left over when nothing takes tags any more.  Nothing
  else is lost.
-/
theorem tags_reach_their_places
    {source : String}
    {story : Story}
    (hRead : Story.read source = .ok story) :
    ∃ ls d o d',
      (classifyScript source).run ⟨[], 0⟩ = .ok (ls, d) ∧
        (buildOutline ls).run d = .ok (some o, d') ∧
        story.outline = o.resolve ∧
        o.tags = firstTags ls ∧
        (∀ before t after, ls = before ++ t :: after →
          t.isTag = true →
            before.any ScriptLine.isBreak = false →
              t.tags <:+: o.tags) ∧
        List.Forall₂ (fun s e =>
            KnotCarries s e ∧ LosesNoTag s e)
          (sections ScriptLine.isKnot ls) o.knots.entries ∧
        ∀ s ∈ sections ScriptLine.isKnot ls,
          tagsIn s.lines =
            firstTags s.lines ++ s.carried.flatMap Prod.fst ++
              s.leftOver := by
  rcases Story.read_eq_ok_iff.mp hRead with
    ⟨o, d, hRun, hNone, rfl⟩
  have hClean := Draft.any_isError_eq_false.mp hNone
  unfold readOutline at hRun
  rcases run_bind_ok.mp hRun with ⟨ls, d₁, hLines, hRun⟩
  rcases run_bind_ok.mp hRun with ⟨o?, d₂, hBuild, hRun⟩
  cases o? with
  | none => cases (run_pure_ok.mp hRun).1
  | some o' =>
      rcases run_bind_ok.mp hRun with ⟨_, d₃, hCheck, hRun⟩
      rcases run_pure_ok.mp hRun with ⟨hSame, rfl⟩
      cases hSame
      have hClean₂ := (o.checks d₂ _ _ hCheck).1.isClean hClean
      have hProper :=
        (classifyScript_idles source _ ls d₁ hLines).2.2.1
      rcases buildOutline_keepsTags hProper hBuild hClean₂ with
        ⟨hTags, hKnots⟩
      refine ⟨ls, d₁, o, d₂, hLines, hBuild, rfl, hTags, ?_,
        ?_, ?_⟩
      · rintro before t after rfl hTag hBefore
        rw [hTags]
        exact tags_infix_firstTags hTag hBefore
      · exact hKnots.imp fun _ _ hCarries =>
          ⟨hCarries, hCarries.losesNoTag⟩
      · intro s _
        exact tagsIn_eq s.lines

/- A script with tags in all places where they can stand. -/
def taggedScript : String :=
  "# title
VAR n = 0
Hi
# warm
~ n = 1
* Go # far
== hub
# dark
= den
# cold
-
# dry
- Ho # wet
"

/-
  An assignment, the header of a stitch and a gather without
  text leave the tags ahead of them waiting.
-/
theorem tags_reach_their_places_everywhere :
    ∃ story ls d o d',
      Story.read taggedScript = .ok story ∧
        (classifyScript taggedScript).run ⟨[], 0⟩ =
          .ok (ls, d) ∧
        (buildOutline ls).run d = .ok (some o, d') ∧
        o.tags = ["title"] ∧
        (sections ScriptLine.isKnot ls).map
            (fun s => (s.knotTags, s.carried.map Prod.fst)) =
          [([], [[], [], ["warm"]]),
            (["dark"], [[], ["cold", "dry"]])] ∧
        List.Forall₂ (fun s e =>
            KnotCarries s e ∧ LosesNoTag s e)
          (sections ScriptLine.isKnot ls) o.knots.entries := by
  have hCheck :
      ((Story.read taggedScript).toOption.any fun story =>
        story.outline.tags = ["title"]) = true := by
    decide +kernel
  have hSections :
      (((classifyScript taggedScript).run
          ⟨[], 0⟩).toOption.any fun lines =>
        (sections ScriptLine.isKnot lines.1).map
            (fun s => (s.knotTags, s.carried.map Prod.fst)) =
          [([], [[], [], ["warm"]]),
            (["dark"], [[], ["cold", "dry"]])]) = true := by
    decide +kernel
  rcases exists_ok_of_any hCheck with ⟨story, hRead, hTitle⟩
  rcases exists_ok_of_any hSections with
    ⟨⟨ls, d⟩, hLines, hCarried⟩
  rcases tags_reach_their_places hRead with
    ⟨ls', d', o, d₂, hLines', hBuild, hOutline, _, _, hKnots,
      _⟩
  cases hLines.symm.trans hLines'
  refine ⟨story, ls, d, o, d₂, hRead, hLines, hBuild, ?_,
    of_decide_eq_true hCarried, hKnots⟩
  have hSame := of_decide_eq_true hTitle
  rw [hOutline] at hSame
  exact hSame

/- All tags of an outline. -/
def Outline.allTags
    (o : Outline) : List String :=
  o.tags ++ o.knots.values.flatMap fun k =>
    k.tags ++ k.entries.flatMap fun e =>
      match e with
      | .line content => content.tags
      | .gather _ content =>
          content.elim [] ContentLine.tags
      | .assign _ _ _ => []
      | .choice _ c => c.display.tags ++ c.output.tags

/- A tag at the end of a knot, and text in the next one. -/
def lostTagScript : String :=
  "== hub
Hi
# lost
== den
Ho
"

/- The header of the next knot drops what is waiting. -/
theorem tags_are_dropped_at_ends :
    ∃ story ls d l,
      Story.read lostTagScript = .ok story ∧
        (classifyScript lostTagScript).run ⟨[], 0⟩ =
          .ok (ls, d) ∧
        l ∈ ls ∧ l.isTag = true ∧ "lost" ∈ l.tags ∧
        "lost" ∉ story.outline.allTags := by
  have hCheck :
      ((Story.read lostTagScript).toOption.any fun story =>
        story.outline.allTags = []) = true := by
    decide +kernel
  have hTags :
      (((classifyScript lostTagScript).run
          ⟨[], 0⟩).toOption.any fun lines =>
        lines.1.any fun l => l.isTag && l.tags.contains "lost") =
        true := by
    decide +kernel
  rcases exists_ok_of_any hCheck with ⟨story, hRead, hNone⟩
  rcases exists_ok_of_any hTags with ⟨⟨ls, d⟩, hLines, hAny⟩
  rcases List.any_eq_true.mp hAny with ⟨l, hMem, hBoth⟩
  rw [Bool.and_eq_true, List.contains_iff_mem] at hBoth
  refine ⟨story, ls, d, l, hRead, hLines, hMem, hBoth.1,
    hBoth.2, ?_⟩
  rw [of_decide_eq_true hNone]
  exact List.not_mem_nil

end BranchingStory
