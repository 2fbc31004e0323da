import BranchingStory.Play.Follow
import BranchingStory.Proofs.Actions
import BranchingStory.Proofs.Characters
import BranchingStory.Proofs.Comments
import BranchingStory.Proofs.ContentRoundTrip
import BranchingStory.Proofs.Drafts
import BranchingStory.Story.Read

/-
  This file shows that every text can be written in a script:
  with a backslash in front of each of its characters it is
  read as it is, and a story of that line alone tells it.

  Key definitions include:
    * `IsOneLine`
    * `IsVerbatim`
    * `IsEscaped`
    * `alternativeText`
    * `oneLineOutline`

  Key theorems include:
    * `classifyLine_of_head`
    * `readLine_of_shielded`
    * `cutComment_backslashed`
    * `IsEscaped.classifyScript_eq`
    * `resume_textLine`
    * `texts_can_be_written`
-/

------------------------------------------------------------
-- Texts
------------------------------------------------------------

namespace BranchingStory

/- Whether a text holds no line break. -/
def IsOneLine
    (cs : List Char) : Prop :=
  ∀ c ∈ cs, isLineBreak c = false

/-
  Whether a text can be told as a line: it is one line, not
  blank, and no blank stands at its two ends.
-/
structure IsVerbatim
    (s : String) : Prop where
  oneLine : IsOneLine s.toList
  solid : isBlankText s.toList = false
  trimmed : trimString s = s

variable {cs : List Char}

/- A text without a line break is one line. -/
theorem splitLines_of_isOneLine
    (hSome : cs ≠ [])
    (hLine : IsOneLine cs) :
    splitLines cs = [cs] := by
  induction cs with
  | nil => exact absurd rfl hSome
  | cons c cs ih =>
      have hHead := hLine c List.mem_cons_self
      have hOther : c ≠ '\r' := by
        rintro rfl
        cases hHead
      have hRest : consToFirst c (splitLines cs) = [c :: cs] := by
        cases cs with
        | nil => rfl
        | cons c' cs =>
            rw [ih (by simp) fun c hMem =>
              hLine c (List.mem_cons_of_mem _ hMem)]
            rfl
      rw [splitLines, hHead, hRest]
      · rfl
      · intro rest hBreak
        exact absurd hBreak hOther

/- A text that begins with no blank keeps its start. -/
theorem trimStart_cons
    {c : Char}
    (hSolid : isBlank c = false)
    (cs : List Char) :
    trimStart (c :: cs) = c :: cs :=
  List.dropWhile_cons_of_neg (by simp [hSolid])

/- Only what follows the last of its other characters is cut. -/
theorem trimEnd_append_cons
    {c : Char}
    (hSolid : isBlank c = false)
    (cs ds : List Char) :
    trimEnd (cs ++ c :: ds) = cs ++ c :: trimEnd ds := by
  -- In reverse, what is cut stands at the start.
  have hStop (ds : List Char) :
      (ds ++ c :: cs.reverse).dropWhile isBlank =
        ds.dropWhile isBlank ++ c :: cs.reverse := by
    induction ds with
    | nil => exact trimStart_cons hSolid cs.reverse
    | cons d ds ih =>
        cases hBlank : isBlank d with
        | true =>
            rw [List.cons_append,
              List.dropWhile_cons_of_pos hBlank,
              List.dropWhile_cons_of_pos hBlank, ih]
        | false =>
            rw [List.cons_append,
              List.dropWhile_cons_of_neg (by simp [hBlank]),
              List.dropWhile_cons_of_neg (by simp [hBlank]),
              List.cons_append]
  rw [trimEnd, List.reverse_append, List.reverse_cons,
    List.append_assoc, List.singleton_append, hStop,
    List.reverse_append, List.reverse_cons,
    List.reverse_reverse, trimEnd, List.append_assoc,
    List.singleton_append]

/- Blanks that end a text are cut. -/
theorem trimEnd_append_of_isBlank
    {ds : List Char}
    (hBlank : ∀ c ∈ ds, isBlank c = true)
    (cs : List Char) :
    trimEnd (cs ++ ds) = trimEnd cs := by
  rw [trimEnd, List.reverse_append,
    List.dropWhile_append_of_pos, trimEnd]
  intro c hMem
  exact hBlank c (List.mem_reverse.mp hMem)

/- Nothing is trimmed between characters that are no blanks. -/
theorem trim_of_ends
    {c d : Char}
    (hHead : cs.head? = some c)
    (hStart : isBlank c = false)
    (hLast : cs.getLast? = some d)
    (hEnd : isBlank d = false) :
    trim cs = cs := by
  rcases List.getLast?_eq_some_iff.mp hLast with ⟨ds, rfl⟩
  have hSame : trimStart (ds ++ [d]) = ds ++ [d] := by
    cases hList : ds ++ [d] with
    | nil => rfl
    | cons c' rest =>
        rw [hList] at hHead
        cases hHead
        exact trimStart_cons hStart rest
  rw [trim, hSame, trimEnd_append_cons hEnd]
  rfl

/- A text that is trimmed ends with no blank. -/
theorem isBlank_getLast_of_trim
    {c : Char}
    (hTrim : trim cs = cs)
    (hLast : cs.getLast? = some c) :
    isBlank c = false := by
  rw [← hTrim, trim, trimEnd, List.getLast?_reverse] at hLast
  have hHead := List.head?_dropWhile_not isBlank
    (trimStart cs).reverse
  rw [hLast] at hHead
  simpa using hHead

end BranchingStory

------------------------------------------------------------
-- Lines Of Text
------------------------------------------------------------

namespace BranchingStory

variable {cs : List Char}
variable {line : Nat}

/- A line that begins with an escape or a brace is text. -/
theorem classifyLine_of_head
    {c : Char}
    (hHead : c = '\\' ∨ c = '{')
    (line : Nat)
    (rest : List Char) :
    classifyLine line (c :: rest) =
      return some ⟨.text, line, String.ofList (c :: rest)⟩ := by
  have hWords :
      classifyLine line (c :: rest) =
        classifyWords line (c :: rest) := by
    rcases hHead with rfl | rfl <;> rfl
  -- No keyword begins with an escape or a brace.
  have hOther (keyword : String)
      (hKeyword : keyword.toList.head? ≠ some c) :
      String.ofList (breakAt ' ' (c :: rest)).1 ≠ keyword := by
    rintro rfl
    apply hKeyword
    have hSpace : c ≠ ' ' := by
      rcases hHead with rfl | rfl <;> decide
    rw [String.toList_ofList, breakAt, if_neg hSpace]
    rfl
  have hNone (keyword : String)
      (hKeyword : keyword ∈
        ["VAR", "CONST", "INCLUDE", "EXTERNAL"]) :
      String.ofList (breakAt ' ' (c :: rest)).1 ≠ keyword := by
    apply hOther
    simp only [List.mem_cons, List.not_mem_nil, or_false]
      at hKeyword
    rcases hHead with rfl | rfl <;>
      rcases hKeyword with rfl | rfl | rfl | rfl <;> decide
  rw [hWords, classifyWords]
  simp only [hNone "VAR" (by simp), hNone "CONST" (by simp),
    hNone "INCLUDE" (by simp), hNone "EXTERNAL" (by simp),
    or_self, if_false]

/- Such a line without a comment is read as it is. -/
theorem readScriptLine_of_head
    {c : Char}
    {rest : List Char}
    (hHead : c = '\\' ∨ c = '{')
    (hTrim : trim (c :: rest) = c :: rest)
    (hNone : cutComment 0 false (c :: rest) = (c :: rest, none))
    (line : Nat) :
    readScriptLine line (c :: rest) =
      return some ⟨.text, line, String.ofList (c :: rest)⟩ := by
  rw [← classifyLine_of_head hHead]
  unfold readScriptLine dropComment
  rw [hNone]
  simp only [Option.bind_none, pure_bind, hTrim]

/- A script of one line is read as this line. -/
theorem classifyScript_of_isOneLine
    {l : ScriptLine}
    (hSome : cs ≠ [])
    (hLine : IsOneLine cs)
    (hRead : readScriptLine 1 cs = return some l) :
    classifyScript (String.ofList cs) = return [l] := by
  rw [classifyScript, String.toList_ofList,
    splitLines_of_isOneLine hSome hLine, classifyFrom,
    classifyFrom, hRead]
  rfl

/- A text ends with glue only if its last sign closes. -/
theorem not_glueMark_suffix_concat
    {c : Char}
    (hClose : c ≠ '>')
    (cs : List Char) :
    ¬ glueMark <:+ cs ++ [c] := by
  rintro ⟨before, hSuffix⟩
  have hLast := congrArg List.getLast? hSuffix
  rw [List.getLast?_concat, glueMark, List.getLast?_append,
    List.getLast?_cons_cons, List.getLast?_singleton,
    Option.some_or, Option.some.injEq] at hLast
  exact hClose hLast.symm

/-
  A line in which no mark is open has no tag and no divert,
  only the content that is read from it once its glue is taken
  out.
-/
theorem readLine_of_shielded
    (hShielded : Shielded 0 cs 0)
    (hBegin : beginsWithGlue cs = false)
    (hEnd : endsWithGlue cs = false) :
    readLine line cs = (do
      let fs ← readFragments line (dropGlue cs)
      return ⟨fs, line, false, false, []⟩) := by
  have hMarks :
      topLevel cs = shield cs := by
    have hAll := hShielded.outside 0 [] (Int.le_refl 0)
    rw [List.append_nil] at hAll
    exact hAll.trans (List.append_nil _)
  have hTags : splitTags cs = (cs, []) := by
    rw [splitTags, hMarks,
      Marked.split_of_notMem (not_mem_shield '#' cs),
      chars_shield]
    rfl
  rw [readLine, hTags]
  simp only [readDivert_of_shielded hShielded, pure_bind]
  rw [if_neg (by simp)]
  simp only [readGlued, hasTarget, divertTo, hBegin, hEnd,
    List.append_nil, Bool.false_eq_true, if_false, Bool.or_self]

end BranchingStory

------------------------------------------------------------
-- Escaped Lines
------------------------------------------------------------

namespace BranchingStory

/-
  Whether a line has no mark that is open: it begins with an
  escape or a brace, ends with no blank, and holds no line
  break, no comment, no glue, no tag and no arrow.
-/
structure IsEscaped
    (cs : List Char) : Prop where
  head : cs.head? = some '\\' ∨ cs.head? = some '{'
  last : ∃ c, cs.getLast? = some c ∧ isBlank c = false
  oneLine : IsOneLine cs
  noComment : cutComment 0 false cs = (cs, none)
  noGlue : dropGlue cs = cs
  noEndGlue : ¬ glueMark <:+ cs
  shielded : Shielded 0 cs 0

namespace IsEscaped

open Reading

variable {cs : List Char}
variable {line : Nat}

/- An escaped line is not trimmed. -/
theorem trim_eq
    (hEscaped : IsEscaped cs) :
    trim cs = cs := by
  rcases hEscaped.last with ⟨d, hLast, hEnd⟩
  rcases hEscaped.head with hHead | hHead
  · exact trim_of_ends hHead (by decide) hLast hEnd
  · exact trim_of_ends hHead (by decide) hLast hEnd

/- An escaped line has a first character. -/
theorem exists_cons
    (hEscaped : IsEscaped cs) :
    ∃ c rest, cs = c :: rest ∧ (c = '\\' ∨ c = '{') := by
  cases cs with
  | nil => rcases hEscaped.head with hHead | hHead <;> cases hHead
  | cons c rest =>
      refine ⟨c, rest, rfl, ?_⟩
      simpa using hEscaped.head

/- A script of one escaped line is one line of text. -/
theorem classifyScript_eq
    (hEscaped : IsEscaped cs) :
    classifyScript (String.ofList cs) =
      return [⟨.text, 1, String.ofList cs⟩] := by
  have hTrim := hEscaped.trim_eq
  have hNone := hEscaped.noComment
  have hLine := hEscaped.oneLine
  rcases hEscaped.exists_cons with ⟨c, rest, rfl, hHead⟩
  exact classifyScript_of_isOneLine (by simp) hLine
    (readScriptLine_of_head hHead hTrim hNone 1)

/- An escaped line neither begins nor ends with glue. -/
theorem noGlueAround
    (hEscaped : IsEscaped cs) :
    beginsWithGlue cs = false ∧ endsWithGlue cs = false := by
  rcases hEscaped.exists_cons with ⟨c, rest, hCons, hHead⟩
  constructor
  · rw [beginsWithGlue, hEscaped.trim_eq, hCons]
    rcases hHead with rfl | rfl <;> rfl
  · rw [endsWithGlue, hEscaped.trim_eq, ← Bool.not_eq_true,
      List.isSuffixOf_iff_suffix]
    exact hEscaped.noEndGlue

/-
  An escaped line has no tag, no divert and no glue, only the
  content that is read from it.
-/
theorem readLine_eq
    (hEscaped : IsEscaped cs) :
    readLine line cs = (do
      let fs ← readFragments line cs
      return ⟨fs, line, false, false, []⟩) := by
  rw [readLine_of_shielded hEscaped.shielded
    hEscaped.noGlueAround.1 hEscaped.noGlueAround.2,
    hEscaped.noGlue]

end IsEscaped

end BranchingStory

------------------------------------------------------------
-- Escaped Texts
------------------------------------------------------------

namespace BranchingStory

variable {cs rest : List Char}

/- Escaped characters begin no comment. -/
theorem cutComment_backslashed
    (depth : Nat)
    (cs rest : List Char) :
    cutComment depth false (backslashed cs ++ rest) =
      (backslashed cs ++ (cutComment depth false rest).1,
        (cutComment depth false rest).2) := by
  induction cs with
  | nil => rfl
  | cons c cs ih =>
      rw [backslashed, List.cons_append, List.cons_append,
        cutComment, ih]
      rfl

/- Glue is left alone where its two signs are kept apart. -/
theorem dropGlue_cons
    (c : Char)
    (hApart : rest.head? ≠ some '>') :
    dropGlue (c :: rest) = c :: dropGlue rest := by
  rw [dropGlue]
  rintro rest' - rfl
  exact hApart rfl

/- Escaped characters are no glue. -/
theorem dropGlue_backslashed
    (cs : List Char)
    (hApart : rest.head? ≠ some '>') :
    dropGlue (backslashed cs ++ rest) =
      backslashed cs ++ dropGlue rest := by
  induction cs with
  | nil => rfl
  | cons c cs ih =>
      have hApart' :
          (backslashed cs ++ rest).head? ≠ some '>' := by
        cases cs with
        | nil => exact hApart
        | cons c' cs => simp [backslashed]
      rw [backslashed, List.cons_append, List.cons_append,
        dropGlue, dropGlue_cons c hApart', ih]
      · rfl
      · rintro rest' hNever
        cases hNever

/- To escape a text breaks no line. -/
theorem isOneLine_backslashed
    (hLine : IsOneLine cs) :
    IsOneLine (backslashed cs) := by
  induction cs with
  | nil => exact hLine
  | cons c cs ih =>
      rw [IsOneLine, List.forall_mem_cons] at hLine
      rw [backslashed, IsOneLine, List.forall_mem_cons,
        List.forall_mem_cons]
      exact ⟨by decide, hLine.1, ih hLine.2⟩

/- An escaped text ends as the text does. -/
theorem getLast?_backslashed
    (cs : List Char) :
    (backslashed cs).getLast? = cs.getLast? := by
  induction cs with
  | nil => rfl
  | cons c cs ih =>
      rw [backslashed, List.getLast?_cons_cons]
      cases cs with
      | nil => rfl
      | cons c' cs =>
          rw [List.getLast?_cons_cons, ← ih, backslashed,
            List.getLast?_cons_cons]

/- The character before the last is a backslash. -/
theorem not_glueMark_suffix_backslashed
    (cs : List Char) :
    ¬ glueMark <:+ backslashed cs := by
  induction cs with
  | nil => exact fun hSuffix => by cases hSuffix.length_le
  | cons c cs ih =>
      intro hSuffix
      rw [backslashed, List.suffix_cons_iff,
        List.suffix_cons_iff] at hSuffix
      rcases hSuffix with hSame | hSame | hRest
      · cases hSame
      · cases cs with
        | nil => cases hSame
        | cons c' cs => cases hSame
      · exact ih hRest

/- An escaped text is an escaped line if it can be told. -/
theorem isEscaped_backslashed
    {s : String}
    (hVerbatim : IsVerbatim s) :
    IsEscaped (backslashed s.toList) where
  head := by
    have hSolid := hVerbatim.solid
    cases hChars : s.toList with
    | nil =>
        rw [hChars] at hSolid
        cases hSolid
    | cons c cs => exact Or.inl rfl
  last := by
    have hTrim : trim s.toList = s.toList := by
      rw [← String.toList_ofList (l := trim s.toList)]
      exact congrArg String.toList hVerbatim.trimmed
    rw [getLast?_backslashed]
    cases hLast : s.toList.getLast? with
    | none =>
        have hSolid := hVerbatim.solid
        rw [List.getLast?_eq_none_iff.mp hLast] at hSolid
        cases hSolid
    | some c =>
        exact ⟨c, rfl, isBlank_getLast_of_trim hTrim hLast⟩
  oneLine := isOneLine_backslashed hVerbatim.oneLine
  noComment := by
    have hCut := cutComment_backslashed 0 s.toList []
    rw [List.append_nil] at hCut
    exact hCut.trans (by simp [cutComment])
  noGlue := by
    have hNone : ([] : List Char).head? ≠ some '>' := by simp
    have hGlue := dropGlue_backslashed s.toList hNone
    rw [List.append_nil] at hGlue
    exact hGlue.trans (List.append_nil _)
  noEndGlue := not_glueMark_suffix_backslashed _
  shielded := shielded_backslashed _

end BranchingStory

------------------------------------------------------------
-- Alternatives Of Escaped Texts
------------------------------------------------------------

namespace BranchingStory

/- Texts in braces, escaped and with bars between them. -/
def alternativeText
    (items : List String) : List Char :=
  embraced
    (['|'].intercalate
      (items.map fun s => backslashed s.toList))

/- The content that texts are as items of an alternative. -/
def textItems
    (items : List String) : List (List Fragment) :=
  items.map fun s => textFragment s.toList

variable {line : Nat}
variable {items : List String}

theorem printAll_textFragment
    (cs : List Char) :
    printAll (textFragment cs) = backslashed cs := by
  cases cs with
  | nil => rfl
  | cons c cs =>
      change backslashed (String.ofList (c :: cs)).toList ++ [] =
        _
      rw [String.toList_ofList, List.append_nil]

@[simp] theorem printItems_textItems_single
    (s : String) :
    printItems (textItems [s]) = backslashed s.toList := by
  rw [textItems, List.map_singleton, printItems,
    printAll_textFragment, List.isEmpty_nil, if_pos rfl,
    List.append_nil]

/- A bar stands between a text and those after it. -/
@[simp] theorem printItems_textItems_cons
    (s t : String)
    (items : List String) :
    printItems (textItems (s :: t :: items)) =
      backslashed s.toList ++
        '|' :: printItems (textItems (t :: items)) := by
  rw [textItems, List.map_cons, printItems,
    printAll_textFragment, List.map_cons, List.isEmpty_cons,
    if_neg (by decide)]
  rfl

/- Texts are written as items with bars between them. -/
theorem printItems_textItems
    (items : List String) :
    printItems (textItems items) =
      ['|'].intercalate
        (items.map fun s => backslashed s.toList) := by
  induction items with
  | nil => rfl
  | cons s items ih =>
      cases items with
      | nil => simp
      | cons t items =>
          rw [printItems_textItems_cons, ih]
          simp [List.intercalate]

/- Texts can be printed as items. -/
theorem itemsArePrintable_textItems
    (items : List String)
    (line : Nat) :
    ItemsArePrintable line (textItems items) := by
  rw [itemsArePrintable_iff]
  intro fs hMem
  rcases List.mem_map.mp hMem with ⟨s, _, rfl⟩
  cases hChars : s.toList with
  | nil => exact ⟨.nil, trivial⟩
  | cons c cs =>
      refine ⟨.singleton _, ?_, trivial⟩
      rw [Fragment.IsPrintable]
      simp

/- Two texts or more are the content of an alternative. -/
theorem isContent_textItems
    (hTwo : 2 ≤ items.length)
    (number : Nat) :
    IsContent line
      [.alternative .sequence (textItems items) number] := by
  refine ⟨⟨.singleton _, ⟨?_, ?_⟩, trivial⟩, ?_⟩
  · rw [textItems, List.length_map]
    exact hTwo
  · exact itemsArePrintable_textItems items _
  · rw [List.forall_mem_singleton]
    rfl

/- The alternative is written as its texts in braces. -/
theorem printAll_alternative_textItems
    (items : List String)
    (number : Nat) :
    printAll [.alternative .sequence (textItems items) number] =
      alternativeText items := by
  rw [printAll, printAll, List.append_nil, Fragment.print,
    printItems_textItems]
  rfl

/- What stands between bars is one line if the texts are. -/
theorem isOneLine_textItems
    (hLines : ∀ s ∈ items, IsOneLine s.toList) :
    IsOneLine (printItems (textItems items)) := by
  induction items with
  | nil => simp [IsOneLine, textItems, printItems]
  | cons s items ih =>
      rw [List.forall_mem_cons] at hLines
      have hText := isOneLine_backslashed hLines.1
      cases items with
      | nil =>
          rw [printItems_textItems_single]
          exact hText
      | cons t items =>
          rw [printItems_textItems_cons, IsOneLine,
            List.forall_mem_append, List.forall_mem_cons]
          exact ⟨hText, by decide, ih hLines.2⟩

/- No comment begins among the items. -/
theorem cutComment_textItems
    (items : List String)
    (rest : List Char) :
    cutComment 1 false (printItems (textItems items) ++ rest) =
      (printItems (textItems items) ++
        (cutComment 1 false rest).1,
        (cutComment 1 false rest).2) := by
  induction items with
  | nil => rfl
  | cons s items ih =>
      cases items with
      | nil =>
          rw [printItems_textItems_single]
          exact cutComment_backslashed 1 s.toList rest
      | cons t items =>
          have hBar (cs : List Char) :
              cutComment 1 false ('|' :: cs) =
                consBeforeCut '|' (cutComment 1 false cs) := rfl
          rw [printItems_textItems_cons, List.append_assoc,
            List.cons_append, cutComment_backslashed, hBar, ih]
          simp [consBeforeCut]

/- No glue stands among the items. -/
theorem dropGlue_textItems
    (items : List String)
    (hApart : rest.head? ≠ some '>') :
    dropGlue (printItems (textItems items) ++ rest) =
      printItems (textItems items) ++ dropGlue rest := by
  induction items with
  | nil => rfl
  | cons s items ih =>
      cases items with
      | nil =>
          rw [printItems_textItems_single]
          exact dropGlue_backslashed s.toList hApart
      | cons t items =>
          rw [printItems_textItems_cons, List.append_assoc,
            List.cons_append,
            dropGlue_backslashed _ (by simp), dropGlue, ih,
            List.append_assoc, List.cons_append]
          rintro rest' hNever
          cases hNever

/- Escaped texts in braces are an escaped line. -/
theorem isEscaped_alternativeText
    (hLines : ∀ s ∈ items, IsOneLine s.toList) :
    IsEscaped (alternativeText items) := by
  have hText :
      alternativeText items =
        '{' :: (printItems (textItems items) ++ ['}']) := by
    rw [printItems_textItems]
    rfl
  rw [hText]
  constructor
  · exact Or.inr rfl
  · refine ⟨'}', ?_, by decide⟩
    rw [← List.cons_append, List.getLast?_concat]
  · rw [IsOneLine, List.forall_mem_cons,
      List.forall_mem_append, List.forall_mem_singleton]
    exact ⟨by decide, isOneLine_textItems hLines, by decide⟩
  · change consBeforeCut '{' (cutComment 1 false _) = _
    rw [cutComment_textItems]
    rfl
  · rw [dropGlue, dropGlue_textItems items (by simp)]
    · rfl
    · rintro rest' hNever
      cases hNever
  · rw [← List.cons_append]
    exact not_glueMark_suffix_concat (by decide) _
  · have hContent :
        Shielded 1 (printItems (textItems items)) 0 :=
      shielded_printItems _
        (itemsArePrintable_textItems items 0)
    exact hContent.braces

end BranchingStory

------------------------------------------------------------
-- Stories Of One Line
------------------------------------------------------------

namespace BranchingStory

open Reading

/- The outline of a script with one line of content. -/
def oneLineOutline
    (content : ContentLine) : Outline :=
  { knots :=
      ⟨[(rootName,
        ⟨rootName, 1,
          ⟨[(rootName,
            ⟨rootName, 1, ⟨0, [.line 1 content]⟩⟩)]⟩, []⟩)]⟩
    start := .root rootName
    vars := .empty
    tags := []
    detached := []
    size := 2 }

/- A line of text makes up the outline of its content. -/
theorem buildOutline_line
    {text : String}
    {content : ContentLine}
    {d d' : Draft}
    (hRead :
      (readLine 1 text.toList).run d = .ok (content, d')) :
    (buildOutline [⟨.text, 1, text⟩]).run d =
      .ok (some (oneLineOutline content), d') := by
  have hAdd :
      (Builder.empty.add ⟨.text, 1, text⟩).run d =
        .ok ({ Builder.empty with
          nextId := 2
          knot := some { OpenKnot.empty rootName 1 false with
            current := some ⟨some rootName, 1, 0,
              ⟨[], [.line 1 content]⟩⟩ } }, d') := by
    refine run_bind_ok.mpr ⟨content, d', hRead, ?_⟩
    rfl
  rw [buildOutline, List.foldlM_cons]
  refine run_bind_ok.mpr ⟨_, d',
    run_bind_ok.mpr ⟨_, d', hAdd, rfl⟩, ?_⟩
  rfl

/- The line of a text without anything else. -/
def textLine
    (line : Nat)
    (s : String) : ContentLine :=
  ⟨[.text s], line, false, false, []⟩

/- A script of one line of text is a story without notes. -/
theorem read_textLine
    {source s : String}
    (hClassify :
      classifyScript source = return [⟨.text, 1, source⟩])
    (hRead : ∀ d, (readLine 1 source.toList).run d =
      .ok (textLine 1 s, d)) :
    Story.read source =
      .ok ⟨oneLineOutline (textLine 1 s), .ofIssues []⟩ := by
  have hOutline :
      (readOutline source).run ⟨[], 0⟩ =
        .ok (some (oneLineOutline (textLine 1 s)), ⟨[], 0⟩) := by
    rw [readOutline, hClassify, pure_bind]
    refine run_bind_ok.mpr
      ⟨_, _, buildOutline_line (hRead _), ?_⟩
    rfl
  rw [Story.read, Reading.start, hOutline]
  rfl

/- A story of one line of text tells it and is over. -/
theorem resume_textLine
    {s : String}
    (hSolid : isBlankText s.toList = false)
    (hTrimmed : trimString s = s)
    (seed : Int)
    {steps : Nat}
    (hSteps : 3 ≤ steps) :
    ((resume (oneLineOutline (textLine 1 s)) steps).runFrom
      (.start (oneLineOutline (textLine 1 s)) seed)).1 =
        .ok ([⟨s ++ "\n", []⟩], .done) := by
  rcases Nat.exists_eq_add_of_le' hSteps with ⟨n, rfl⟩
  -- The stitch is entered, the line is told, and the end met.
  have hFollow :
      ((resume (oneLineOutline (textLine 1 s))
        (n + 3)).runFrom
          (.start (oneLineOutline (textLine 1 s)) seed)).1 =
        .ok (joinLines [⟨s ++ "" ++ "", false, false, []⟩],
          .done) := by
    rfl
  rw [hFollow, String.append_empty, String.append_empty,
    joinLines]
  simp only [RenderedLine.isBlank, hSolid, List.filter_cons,
    Bool.not_false, if_true, List.filter_nil, joinKept, endLine,
    hTrimmed]

end BranchingStory

------------------------------------------------------------
-- Writing Texts
------------------------------------------------------------

namespace BranchingStory

variable {line : Nat}

/- The content of an escaped line is that of its print. -/
theorem readLine_printAll
    {fs : List Fragment}
    (hEscaped : IsEscaped (printAll fs))
    (hContent : IsContent line fs)
    (d : Draft) :
    (readLine line (printAll fs)).run d =
      .ok (⟨renumberAll d.numbered fs, line, false, false, []⟩,
        d.after (numbersAll fs).length) := by
  rw [hEscaped.readLine_eq]
  refine Reading.run_bind_ok.mpr ⟨_, _,
    readFragmentsWithin_yields _ hContent (Nat.le_refl _) d, ?_⟩
  rfl

/- An escaped text is read as the text that it is. -/
theorem readLine_backslashed
    {s : String}
    (hVerbatim : IsVerbatim s)
    (d : Draft) :
    (readLine line (backslashed s.toList)).run d =
      .ok (textLine line s, d) := by
  have hSome : s ≠ "" := by
    rintro rfl
    cases hVerbatim.solid
  have hPrint : printAll [.text s] = backslashed s.toList :=
    List.append_nil _
  have hContent : IsContent line [.text s] :=
    ⟨⟨.singleton _, hSome, trivial⟩, by simp [Fragment.isDivert]⟩
  rw [← hPrint]
  apply readLine_printAll _ hContent
  rw [hPrint]
  exact isEscaped_backslashed hVerbatim

/- The items of texts hold no alternative to be numbered. -/
theorem renumberItems_textItems
    (n : Nat)
    (items : List String) :
    renumberItems n (textItems items) = textItems items ∧
      numbersOfItems (textItems items) = [] := by
  induction items with
  | nil => exact ⟨rfl, rfl⟩
  | cons s items ih =>
      rcases renumberAll_textFragment n s.toList with
        ⟨hSame, hNone⟩
      rw [textItems, List.map_cons, renumberItems,
        numbersOfItems, hSame, hNone, List.length_nil,
        Nat.add_zero]
      rw [textItems] at ih
      rw [ih.1, ih.2]
      exact ⟨rfl, rfl⟩

/- Escaped texts in braces are read as an alternative. -/
theorem readLine_alternativeText
    {items : List String}
    (hTwo : 2 ≤ items.length)
    (hLines : ∀ s ∈ items, IsOneLine s.toList)
    (d : Draft) :
    (readLine line (alternativeText items)).run d =
      .ok (⟨[.alternative .sequence (textItems items)
          d.numbered], line, false, false, []⟩,
        { d with numbered := d.numbered + 1 }) := by
  have hPrint := printAll_alternative_textItems items 0
  rw [← hPrint]
  refine (readLine_printAll (hPrint ▸
    isEscaped_alternativeText hLines)
    (isContent_textItems hTwo 0) d).trans ?_
  rcases renumberItems_textItems d.numbered items with
    ⟨hSame, hNone⟩
  simp only [renumberAll, numbersAll, Fragment.renumber,
    Fragment.numbers, hSame, hNone]
  rfl

/-
  Every text that is one line, not blank and without blanks at
  its ends can be written by putting a backslash in front of
  each of its characters: that is one line of text, it is read
  as this text and nothing else, without an issue, and a story
  of it tells the text and a line feed.  Two or more one-line
  texts written so, with bars between them and in braces, are
  one line of text, too, and read as the alternative that
  shows these texts in sequence.
-/
theorem texts_can_be_written :
    (∀ s, IsVerbatim s →
      (∀ d,
        (classifyScript
          (String.ofList (backslashed s.toList))).run d =
            .ok ([⟨.text, 1,
              String.ofList (backslashed s.toList)⟩], d)) ∧
      (∀ line d,
        (readLine line (backslashed s.toList)).run d =
          .ok (⟨[.text s], line, false, false, []⟩, d)) ∧
      ∃ story,
        Story.read (String.ofList (backslashed s.toList)) =
          .ok story ∧
        ∀ seed steps, 3 ≤ steps →
          ((resume story.outline steps).runFrom
            (.start story.outline seed)).1 =
              .ok ([⟨s ++ "\n", []⟩], .done)) ∧
    (∀ items : List String, 2 ≤ items.length →
      (∀ s ∈ items, IsOneLine s.toList) →
      (∀ d,
        (classifyScript
          (String.ofList (alternativeText items))).run d =
            .ok ([⟨.text, 1,
              String.ofList (alternativeText items)⟩], d)) ∧
      ∀ line d,
        (readLine line (alternativeText items)).run d =
          .ok (⟨[.alternative .sequence (textItems items)
              d.numbered], line, false, false, []⟩,
            { d with numbered := d.numbered + 1 })) := by
  constructor
  · intro s hVerbatim
    have hClassify :=
      (isEscaped_backslashed hVerbatim).classifyScript_eq
    refine ⟨?_, ?_, ?_⟩
    · intro d
      rw [hClassify]
      rfl
    · intro line d
      exact readLine_backslashed hVerbatim d
    · refine ⟨_, read_textLine (s := s) hClassify ?_, ?_⟩
      · intro d
        rw [String.toList_ofList]
        exact readLine_backslashed hVerbatim d
      · intro seed steps hSteps
        exact resume_textLine hVerbatim.solid hVerbatim.trimmed
          seed hSteps
  · intro items hTwo hLines
    constructor
    · intro d
      rw [(isEscaped_alternativeText hLines).classifyScript_eq]
      rfl
    · intro line d
      exact readLine_alternativeText hTwo hLines d

/-
  A text of marks only, with a brace, glue and a comment, and
  an alternative whose items hold a bar, nothing and an arrow.
-/
theorem texts_can_be_written_marks :
    IsVerbatim "\x7b<> //#" ∧
      (∃ story,
        Story.read "\\\x7b\\<\\>\\ \\/\\/\\#" = .ok story ∧
          ((resume story.outline 3).runFrom
            (.start story.outline 0)).1 =
              .ok ([⟨"\x7b<> //#\n", []⟩], .done)) ∧
      (∀ s ∈ ["|\x7d", "", "->"], IsOneLine s.toList) ∧
      (readLine 4
        "\x7b\\|\\\x7d||\\-\\>\x7d".toList).run ⟨[], 7⟩ =
          .ok (⟨[.alternative .sequence
            [[.text "|\x7d"], [], [.text "->"]] 7], 4, false,
              false, []⟩, ⟨[], 8⟩) := by
  have hVerbatim : IsVerbatim "\x7b<> //#" :=
    ⟨by simp [IsOneLine, isLineBreak], by decide, by decide⟩
  have hLines :
      ∀ s ∈ ["|\x7d", "", "->"], IsOneLine s.toList := by
    simp [IsOneLine, isLineBreak]
  have hText :
      String.ofList (backslashed "\x7b<> //#".toList) =
        "\\\x7b\\<\\>\\ \\/\\/\\#" := by
    decide +kernel
  have hItems :
      alternativeText ["|\x7d", "", "->"] =
        "\x7b\\|\\\x7d||\\-\\>\x7d".toList := by
    decide +kernel
  rcases texts_can_be_written.1 _ hVerbatim with
    ⟨_, _, story, hRead, hTold⟩
  rcases texts_can_be_written.2 ["|\x7d", "", "->"]
    (Nat.le_succ 2) hLines with ⟨_, hAlternative⟩
  rw [hText] at hRead
  rw [hItems] at hAlternative
  exact ⟨hVerbatim,
    ⟨story, hRead, hTold 0 3 (Nat.le_refl 3)⟩, hLines,
    hAlternative 4 ⟨[], 7⟩⟩

end BranchingStory
