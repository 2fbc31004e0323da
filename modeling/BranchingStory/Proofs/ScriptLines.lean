import BranchingStory.Proofs.Numbering

/-
  This file says what is known of the logical lines of a
  script: headers have proper names, choices are marked, and
  the lines are together no longer than the script.

  Key definitions include:
    * `IsPlaceName`
    * `ScriptLine.IsProper`
    * `ScriptLine.IsReadFrom`
    * `scriptLength`

  Key theorems include:
    * `isPlaceName_of_isName`
    * `readScriptLine_readsFrom`
    * `classifyScript_reads`
-/

------------------------------------------------------------
-- Names Of Places
------------------------------------------------------------

namespace BranchingStory

/-
  Whether a name can stand in a path: it is not empty and has
  no point, so that paths tell knots and stitches apart.  Its
  characters are those of words and the one that marks the
  name of the root.
-/
structure IsPlaceName
    (s : String) : Prop where
  notEmpty : s.toList ≠ []
  noPoint : '.' ∉ s.toList
  letters : ∀ c ∈ s.toList, isWordChar c = true ∨ c = '$'

/- A name of word characters can stand in a path. -/
theorem isPlaceName_of_isName
    {cs : List Char}
    (hName : isName cs = true) :
    IsPlaceName (String.ofList cs) := by
  rw [isName, Bool.and_eq_true] at hName
  rcases hName with ⟨hNotEmpty, hWord⟩
  constructor
  · rw [String.toList_ofList]
    rintro rfl
    cases hNotEmpty
  · rw [String.toList_ofList]
    intro hPoint
    have hPointWord : isWordChar '.' = true :=
      List.all_eq_true.mp hWord '.' hPoint
    exact absurd hPointWord (by decide)
  · rw [String.toList_ofList]
    intro c hMem
    exact Or.inl (List.all_eq_true.mp hWord c hMem)

/- The name of root knots and stitches can as well. -/
theorem isPlaceName_rootName :
    IsPlaceName rootName := by
  have hLetters :
      rootName.toList.all
        (fun c => isWordChar c || c == '$') = true := by
    decide
  refine ⟨by decide, by decide, ?_⟩
  simpa using hLetters

/- The name of root knots and stitches is never written. -/
theorem rootName_ne_of_isName
    {cs : List Char}
    (hName : isName cs = true) :
    String.ofList cs ≠ rootName := by
  intro hRoot
  rw [isName, Bool.and_eq_true] at hName
  have hChars : cs = rootName.toList := by
    rw [← hRoot, String.toList_ofList]
  have hDollar : '$' ∈ cs := by
    rw [hChars]
    decide
  have hDollarWord : isWordChar '$' = true :=
    List.all_eq_true.mp hName.2 '$' hDollar
  exact absurd hDollarWord (by decide)

end BranchingStory

------------------------------------------------------------
-- Logical Lines
------------------------------------------------------------

namespace BranchingStory

/-
  Whether a logical line is proper: a header has a name that
  can stand in a path and is not that of the root, and a
  choice has a mark.
-/
structure ScriptLine.IsProper
    (l : ScriptLine) : Prop where
  name : l.kind = .knot ∨ l.kind = .stitch →
    IsPlaceName l.text ∧ l.text ≠ rootName
  depth : ∀ n sticky, l.kind = .choice n sticky → 0 < n

/- How long the texts of logical lines are together. -/
def scriptLength : List ScriptLine → Nat
  | [] => 0
  | l :: ls => l.text.toList.length + scriptLength ls

/- Whether a choice or a gather is nested at all. -/
def LineKind.IsNested : LineKind → Prop
  | choice depth _ => 0 < depth
  | gather depth => 0 < depth
  | _ => True

theorem LineKind.IsNested.pos
    {kind : LineKind}
    (hNested : kind.IsNested)
    (depth : Nat)
    (sticky : Bool)
    (hKind : kind = .choice depth sticky) :
    0 < depth := by
  rw [hKind] at hNested
  exact hNested

/- There is a dash at the start of what is no arrow. -/
theorem takeDashes_pos
    {cs : List Char}
    (hArrow : ∀ rest, cs ≠ '>' :: rest) :
    0 < (takeDashes ('-' :: cs)).1 := by
  rw [takeDashes.eq_def]
  split
  · next hNil => cases hNil
  · next rest hCons =>
      cases hCons
      exact absurd rfl (hArrow rest)
  · next c rest _ hCons =>
      cases hCons
      simp

open Reading
open scoped List

/-
  Whether a logical line is read from a text: it is proper, a
  choice or a gather has a mark, and what it holds is a part of
  the text.
-/
structure ScriptLine.IsReadFrom
    (l : ScriptLine)
    (cs : List Char) : Prop where
  proper : l.IsProper
  nested : l.kind.IsNested
  part : l.text.toList <+ cs

/- What is read from a part of a text is read from the text. -/
theorem ScriptLine.IsReadFrom.mono
    {l : ScriptLine}
    {cs ds : List Char}
    (hRead : l.IsReadFrom cs)
    (hPart : cs <+ ds) :
    l.IsReadFrom ds :=
  { hRead with part := hRead.part.trans hPart }

/- Whether the line that a step yields is read from a text. -/
def ReadsFrom
    (r : Reading (Option ScriptLine))
    (cs : List Char) : Prop :=
  r.Idles fun l? => ∀ l, l? = some l → l.IsReadFrom cs

/- A line of another kind than headers. -/
theorem readsFrom_pure
    {kind : LineKind}
    {line : Nat}
    {text cs : List Char}
    (hHeader : kind ≠ .knot ∧ kind ≠ .stitch)
    (hNested : kind.IsNested)
    (hPart : text <+ cs) :
    ReadsFrom
      (pure (some ⟨kind, line, String.ofList text⟩)) cs := by
  refine Idles.pure fun l hSome => ?_
  cases hSome
  refine ⟨⟨?_, hNested.pos⟩, hNested, ?_⟩
  · rintro (hKnot | hStitch)
    · exact absurd hKnot hHeader.1
    · exact absurd hStitch hHeader.2
  · rwa [String.toList_ofList]

/- A line that is not supported. -/
theorem readsFrom_report
    (cause : Cause)
    (line : Nat)
    (cs : List Char) :
    ReadsFrom (do
      Reading.report cause line
      return none) cs := by
  refine Idles.report_pure _ _ fun l hSome => ?_
  cases hSome

/- A header that has a name. -/
theorem readsFrom_header
    {kind : LineKind}
    {line : Nat}
    {cs : List Char}
    (hNested : kind.IsNested)
    (hName : isName (headerName cs) = true) :
    ReadsFrom
      (pure (some
        ⟨kind, line, String.ofList (headerName cs)⟩)) cs := by
  refine Idles.pure fun l hSome => ?_
  cases hSome
  refine ⟨⟨fun _ => ?_, hNested.pos⟩, hNested, ?_⟩
  · exact ⟨isPlaceName_of_isName hName,
      rootName_ne_of_isName hName⟩
  · rw [String.toList_ofList]
    exact headerName_sublist cs

/- A header of a knot has a proper name. -/
theorem classifyKnot_readsFrom
    (line : Nat)
    (cs : List Char) :
    ReadsFrom (classifyKnot line cs) cs := by
  unfold classifyKnot
  dsimp only
  split
  · exact readsFrom_report _ _ _
  · split
    · next hName => exact readsFrom_header trivial hName
    · exact readsFrom_report _ _ _

/- A header of a stitch has a proper name. -/
theorem classifyStitch_readsFrom
    (line : Nat)
    (cs : List Char) :
    ReadsFrom (classifyStitch line cs) cs := by
  unfold classifyStitch
  dsimp only
  split
  · next hName => exact readsFrom_header trivial hName
  · exact readsFrom_report _ _ _

/- A choice has at least the mark that it begins with. -/
theorem classifyChoice_readsFrom
    (line : Nat)
    {c : Char}
    {cs : List Char}
    (hMark : isChoiceMark c = true) :
    ReadsFrom (some <$> classifyChoice line (c :: cs))
      (c :: cs) := by
  have hMarks : 0 < (choiceMarks (c :: cs)).length := by
    simp [choiceMarks, hMark]
  rw [← bind_pure_comp]
  unfold classifyChoice
  dsimp only
  refine Idles.bind
    (Idles.guarded (Idles.report _ _) (Idles.pure rfl))
    fun l hSame => ?_
  rw [← hSame]
  exact readsFrom_pure (by simp) hMarks
    ((trim_sublist _).trans (List.dropWhile_sublist _))

/- A line that begins with no mark. -/
theorem classifyWords_readsFrom
    (line : Nat)
    (cs : List Char) :
    ReadsFrom (classifyWords line cs) cs := by
  have hBody :=
    (trim_sublist ((breakAt ' ' cs).2.getD [])).trans
      (breakAt_sublist ' ' cs)
  unfold classifyWords
  dsimp only
  split
  · exact readsFrom_pure (by simp) trivial hBody
  · split
    · exact readsFrom_pure (by simp) trivial hBody
    · split
      · exact readsFrom_report _ _ _
      · exact readsFrom_pure (by simp) trivial
          (List.Sublist.refl _)

/- A logical line of any kind. -/
theorem classifyLine_readsFrom
    (line : Nat)
    (cs : List Char) :
    ReadsFrom (classifyLine line cs) cs := by
  unfold classifyLine
  split
  · exact classifyKnot_readsFrom line _
  · exact classifyStitch_readsFrom line _
  · exact classifyChoice_readsFrom line (by decide)
  · exact classifyChoice_readsFrom line (by decide)
  · exact readsFrom_pure (by simp) trivial
      (List.Sublist.refl _)
  · next rest hArrow =>
      refine readsFrom_pure (by simp) (takeDashes_pos ?_)
        ((trim_sublist _).trans (takeDashes_sublist _))
      rintro rest' rfl
      exact hArrow rest' rfl
  · exact readsFrom_report _ _ _
  · exact readsFrom_pure (by simp) trivial
      (List.Sublist.refl _)
  · exact readsFrom_pure (by simp) trivial
      ((trim_sublist _).trans (List.sublist_cons_self _ _))
  · exact classifyWords_readsFrom line _

end BranchingStory

------------------------------------------------------------
-- Scripts
------------------------------------------------------------

namespace BranchingStory

open Reading
open scoped List

/- To drop a comment uses no number. -/
theorem dropComment_idles
    (line : Nat)
    (cs : List Char) :
    (dropComment line cs).Idles fun content =>
      content = (cutComment 0 false cs).1 := by
  unfold dropComment
  dsimp only
  split
  · exact Idles.report_pure _ _ rfl
  · exact Idles.pure rfl

/- A line of a script, its comment and outer blanks dropped. -/
theorem readScriptLine_readsFrom
    (line : Nat)
    (cs : List Char) :
    ReadsFrom (readScriptLine line cs) cs := by
  refine Idles.bind (dropComment_idles line cs)
    fun content hSame => ?_
  have hPart : trim content <+ cs := by
    rw [hSame]
    exact (trim_sublist _).trans (cutComment_sublist 0 false cs)
  split
  · refine Idles.pure fun l hSome => ?_
    cases hSome
  · next c rest hSome =>
      rw [hSome] at hPart
      exact Idles.mono (classifyLine_readsFrom line _)
        fun l? hRead l hLine => (hRead l hLine).mono hPart

/- The lines of a script from a given number on. -/
theorem classifyFrom_reads
    (line : Nat)
    (texts : List (List Char)) :
    (classifyFrom line texts).Idles fun ls =>
      (∀ l ∈ ls, l.IsReadFrom texts.flatten) ∧
        scriptLength ls ≤ totalLength texts ∧
        ls.length ≤ texts.length := by
  induction texts generalizing line with
  | nil => exact Idles.pure (by simp [scriptLength])
  | cons cs texts ih =>
      rw [classifyFrom]
      refine Idles.bind (readScriptLine_readsFrom line cs)
        fun l? hLine => ?_
      refine Idles.bind (ih (line + 1)) fun ls hRest => ?_
      apply Idles.pure
      rcases hRest with ⟨hRead, hLength, hCount⟩
      have hLater (l : ScriptLine) (hMem : l ∈ ls) :
          l.IsReadFrom (cs :: texts).flatten :=
        (hRead l hMem).mono (List.sublist_append_right _ _)
      cases l? with
      | none =>
          simp only [Option.toList_none, List.nil_append,
            totalLength_cons, List.length_cons]
          exact ⟨hLater, by omega, by omega⟩
      | some l =>
          have hFirst := hLine l rfl
          have hShort := hFirst.part.length_le
          simp only [Option.toList_some, List.singleton_append,
            List.forall_mem_cons, scriptLength,
            totalLength_cons, List.length_cons]
          exact ⟨⟨hFirst.mono (List.sublist_append_left _ _),
            hLater⟩, by omega, by omega⟩

/- The logical lines of a script. -/
theorem classifyScript_reads
    (source : String) :
    (classifyScript source).Idles fun ls =>
      (∀ l ∈ ls, l.IsReadFrom source.toList) ∧
        scriptLength ls ≤ source.length ∧
        ls.length ≤ source.length := by
  have hParts := splitLines_sublist source.toList
  have hTotal := hParts.length_le
  have hLines := length_splitLines_le source.toList
  rw [← totalLength_eq, String.length_toList] at hTotal
  rw [String.length_toList] at hLines
  refine Idles.mono (classifyFrom_reads 1 _) fun ls hAll => ?_
  rcases hAll with ⟨hRead, hLength, hCount⟩
  exact ⟨fun l hMem => (hRead l hMem).mono hParts,
    by omega, by omega⟩

/- They are proper, and together no longer than the script. -/
theorem classifyScript_idles
    (source : String) :
    (classifyScript source).Idles fun ls =>
      (∀ l ∈ ls, l.IsProper) ∧
        scriptLength ls ≤ source.length ∧
        ls.length ≤ source.length :=
  (classifyScript_reads source).mono fun _ hAll =>
    ⟨fun l hMem => (hAll.1 l hMem).proper, hAll.2⟩

end BranchingStory
