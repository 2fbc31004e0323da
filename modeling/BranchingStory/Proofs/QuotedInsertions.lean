import BranchingStory.Proofs.Excerpts
import BranchingStory.Proofs.Verbatim

/-
  This file shows what becomes of a quoted text in braces that
  makes up a line.  No comment, tag, divert or brace in it is
  taken for a mark, but glue is taken out of it.

  Key definitions include:
    * `inQuotes`

  Key theorems include:
    * `cutComment_quoted`
    * `dropGlue_eq_self_iff`
    * `dropGlue_escape`
    * `readLine_inQuotes`
    * `quoted_lines_are_insertions_iff`
-/

------------------------------------------------------------
-- Quoted Texts
------------------------------------------------------------

namespace BranchingStory

/- A text between quotes, its quotes and backslashes escaped. -/
def inQuotes
    (cs : List Char) : List Char :=
  '"' :: (escape cs ++ ['"'])

variable {cs body : List Char}

/- A literal of a text is printed as the text in quotes. -/
theorem print_string
    (s : String) :
    (Expr.literal (.string s)).print = inQuotes s.toList := by
  rw [Expr.print, Value.token, Token.chars, Token.text,
    String.toList_append, String.toList_append,
    String.toList_ofList (l := escape s.toList)]
  rfl

/- The characters of an escaped text are those of the text. -/
theorem mem_escape
    {c : Char}
    (hMem : c ∈ escape cs) :
    c = '\\' ∨ c ∈ cs := by
  induction cs with
  | nil => cases hMem
  | cons c' cs ih =>
      rw [escape] at hMem
      split at hMem
      · rw [List.mem_cons, List.mem_cons] at hMem
        rcases hMem with rfl | rfl | hRest
        · exact Or.inl rfl
        · exact Or.inr List.mem_cons_self
        · exact (ih hRest).imp_right (List.mem_cons_of_mem _)
      · rw [List.mem_cons] at hMem
        rcases hMem with rfl | hRest
        · exact Or.inr List.mem_cons_self
        · exact (ih hRest).imp_right (List.mem_cons_of_mem _)

/- To put a text in quotes breaks no line. -/
theorem isOneLine_inQuotes
    (hLine : IsOneLine cs) :
    IsOneLine (inQuotes cs) := by
  rw [inQuotes, IsOneLine, List.forall_mem_cons,
    List.forall_mem_append, List.forall_mem_singleton]
  refine ⟨by decide, ?_, by decide⟩
  intro c hMem
  rcases mem_escape hMem with rfl | hMem
  · decide
  · exact hLine c hMem

/- No comment begins within quotes in braces. -/
theorem cutComment_quoted
    (hBody : IsQuotable body)
    (depth : Nat)
    (rest : List Char) :
    cutComment depth true (body ++ '"' :: rest) =
      (body ++ '"' :: (cutComment depth false rest).1,
        (cutComment depth false rest).2) := by
  induction hBody with
  | nil => rfl
  | @cons c cs hQuote hEscape _ ih =>
      have hStill : (c != '"') = true := by simpa using hQuote
      rw [List.cons_append, cutComment, if_pos rfl, hStill, ih]
      · rfl
      · intro hLast
        exact absurd hLast hEscape
      · intro c' cs' hLast
        exact absurd hLast hEscape
  | @escaped c cs _ _ ih =>
      rw [List.cons_append, List.cons_append, cutComment, ih]
      rfl

/- A quoted text in braces holds no comment. -/
theorem cutComment_embraced_inQuotes
    (cs : List Char) :
    cutComment 0 false (embraced (inQuotes cs)) =
      (embraced (inQuotes cs), none) := by
  have hOpen :
      cutComment 0 false (embraced (inQuotes cs)) =
        consBeforeCut '{' (consBeforeCut '"'
          (cutComment 1 true (escape cs ++ '"' :: ['}']))) := by
    rw [embraced, inQuotes, List.cons_append, List.append_assoc]
    rfl
  rw [hOpen, cutComment_quoted (isQuotable_escape cs)]
  simp [consBeforeCut, embraced, inQuotes, cutComment]

end BranchingStory

------------------------------------------------------------
-- Glue In Quotes
------------------------------------------------------------

namespace BranchingStory

variable {cs rest : List Char}

/- Only a sign that opens can begin glue. -/
theorem dropGlue_cons_of_ne
    {c : Char}
    (hOpen : c ≠ '<')
    (rest : List Char) :
    dropGlue (c :: rest) = c :: dropGlue rest := by
  rw [dropGlue]
  rintro rest' rfl -
  exact hOpen rfl

/- Glue is taken out of a text if and only if it is there. -/
theorem dropGlue_eq_self_iff :
    dropGlue cs = cs ↔ ¬ glueMark <:+: cs := by
  fun_induction dropGlue cs with
  | case1 =>
      simp [glueMark]
  | case2 rest ih =>
      have hShort := (dropGlue_sublist rest).length_le
      constructor
      · intro hSame
        rw [hSame, List.length_cons, List.length_cons] at hShort
        omega
      · intro hNone
        exact absurd ⟨[], rest, rfl⟩ hNone
  | case3 c rest hApart ih =>
      rw [List.cons.injEq, eq_self, true_and, ih,
        List.infix_cons_iff, not_or]
      have hHead : ¬ glueMark <+: c :: rest := by
        rintro ⟨rest', hSame⟩
        cases hSame
        exact hApart rest' rfl rfl
      exact ⟨fun hNone => ⟨hHead, hNone⟩,
        fun hBoth => hBoth.2⟩

/- An escaped text begins with a mark if the text does. -/
theorem head?_escape
    {mark : Char}
    (hQuote : mark ≠ '"')
    (hEscape : mark ≠ '\\')
    (cs rest : List Char) :
    (escape cs ++ '"' :: rest).head? = some mark ↔
      cs.head? = some mark := by
  cases cs with
  | nil => simp [escape, hQuote.symm]
  | cons c cs =>
      rw [escape]
      split
      · next hSpecial =>
          have hOther : c ≠ mark := by
            rintro rfl
            exact hSpecial.elim hQuote hEscape
          simp [hEscape.symm, hOther]
      · simp

/-
  Glue is taken out of an escaped text as it is taken out of
  the text: by induction as glue is taken out, since neither
  of its signs is ever escaped.
-/
theorem dropGlue_escape
    (cs rest : List Char) :
    dropGlue (escape cs ++ '"' :: rest) =
      escape (dropGlue cs) ++ '"' :: dropGlue rest := by
  fun_induction dropGlue cs with
  | case1 => exact dropGlue_cons_of_ne (by decide) rest
  | case2 cs ih =>
      simp only [escape, if_neg (by decide : ¬ ('<' = '"' ∨
        '<' = '\\')), if_neg (by decide : ¬ ('>' = '"' ∨
        '>' = '\\')), List.cons_append]
      rw [dropGlue, ih]
  | case3 c cs hApart ih =>
      rw [escape, escape]
      split
      · next hSpecial =>
          have hOpen : c ≠ '<' := by
            rintro rfl
            exact absurd hSpecial (by decide)
          rw [List.cons_append, List.cons_append,
            dropGlue_cons_of_ne (by decide),
            dropGlue_cons_of_ne hOpen, ih]
          rfl
      · by_cases hOpen : c = '<'
        · have hHead :
              (escape cs ++ '"' :: rest).head? ≠ some '>' := by
            rw [ne_eq, head?_escape (by decide) (by decide)]
            intro hClose
            cases cs with
            | nil => cases hClose
            | cons c' cs =>
                cases hClose
                exact hApart cs hOpen rfl
          rw [List.cons_append, dropGlue_cons c hHead, ih]
          rfl
        · rw [List.cons_append, dropGlue_cons_of_ne hOpen, ih]
          rfl

/- Glue is taken out of a quoted text in braces, too. -/
theorem dropGlue_embraced_inQuotes
    (cs : List Char) :
    dropGlue (embraced (inQuotes cs)) =
      embraced (inQuotes (dropGlue cs)) := by
  rw [embraced, inQuotes, List.cons_append,
    dropGlue_cons_of_ne (by decide),
    dropGlue_cons_of_ne (by decide), List.append_assoc,
    List.singleton_append, dropGlue_escape]
  simp [embraced, inQuotes, dropGlue]

end BranchingStory

------------------------------------------------------------
-- Lines Of Quoted Texts
------------------------------------------------------------

namespace BranchingStory

open Reading

/- A quoted text in braces begins and ends with them. -/
theorem trim_embraced
    (cs : List Char) :
    trim (embraced cs) = embraced cs :=
  trim_of_ends (c := '{') (d := '}') rfl (by decide)
    (by rw [embraced, ← List.cons_append, List.getLast?_concat])
    (by decide)

/- What is in braces has no glue around it. -/
theorem noGlueAround_embraced
    (cs : List Char) :
    beginsWithGlue (embraced cs) = false ∧
      endsWithGlue (embraced cs) = false := by
  rw [beginsWithGlue, endsWithGlue, trim_embraced]
  refine ⟨rfl, ?_⟩
  rw [← Bool.not_eq_true, List.isSuffixOf_iff_suffix]
  exact not_glueMark_suffix_concat (by decide) ('{' :: cs)

/- A quoted text in braces is a line of text. -/
theorem readScriptLine_inQuotes
    (cs : List Char)
    (line : Nat) :
    readScriptLine line (embraced (inQuotes cs)) =
      return some ⟨.text, line,
        String.ofList (embraced (inQuotes cs))⟩ :=
  readScriptLine_of_head (Or.inr rfl)
    (trim_embraced (inQuotes cs))
    (cutComment_embraced_inQuotes cs) line

/-
  A line of a quoted text in braces is read as the literal of
  the text without its glue.
-/
theorem readLine_inQuotes
    (s : String)
    (line : Nat)
    (d : Draft) :
    (readLine line (embraced (inQuotes s.toList))).run d =
      .ok (⟨[.insertion (.literal (.string
        (String.ofList (dropGlue s.toList))))], line, false,
          false, []⟩, d) := by
  have hShielded (cs : List Char) :
      Shielded 0 (embraced (inQuotes cs)) 0 :=
    (Shielded.quoted (isQuotable_escape cs)).braces
  -- What is left of the text is printed as its literal.
  let f : Fragment := .insertion (.literal (.string
    (String.ofList (dropGlue s.toList))))
  have hContent : IsContent line [f] :=
    ⟨⟨.singleton _, trivial, trivial⟩, by
      rw [List.forall_mem_singleton]
      rfl⟩
  have hPrint :
      embraced (inQuotes (dropGlue s.toList)) =
        printAll [f] := by
    rw [printAll, printAll, List.append_nil, Fragment.print,
      print_string, String.toList_ofList]
  rw [readLine_of_shielded (hShielded _)
    (noGlueAround_embraced _).1 (noGlueAround_embraced _).2,
    dropGlue_embraced_inQuotes, hPrint]
  exact run_bind_ok.mpr ⟨_, _,
    readFragmentsWithin_yields _ hContent (Nat.le_refl _) d,
    rfl⟩

/-
  A one-line text in quotes, its quotes and backslashes escaped,
  and in braces is one line of text in every script: it holds
  no comment and no mark of another kind of line, and a script
  of it is this line.  It is read without an issue, a tag, a
  divert or glue around it as exactly one insertion, of the
  literal of the text without the glue in it.  This is the text
  itself if and only if there is no glue in it.
-/
theorem quoted_lines_are_insertions_iff
    (s : String)
    (hLine : IsOneLine s.toList) :
    (∀ line d,
      (readScriptLine line
        (embraced (inQuotes s.toList))).run d =
          .ok (some ⟨.text, line,
            String.ofList (embraced (inQuotes s.toList))⟩, d)) ∧
    (∀ d,
      (classifyScript (String.ofList
        (embraced (inQuotes s.toList)))).run d =
          .ok ([⟨.text, 1, String.ofList
            (embraced (inQuotes s.toList))⟩], d)) ∧
    ∀ line d,
      (readLine line (embraced (inQuotes s.toList))).run d =
          .ok (⟨[.insertion (.literal (.string
            (String.ofList (dropGlue s.toList))))], line,
              false, false, []⟩, d) ∧
      ((readLine line (embraced (inQuotes s.toList))).run d =
          .ok (⟨[.insertion (.literal (.string s))], line,
            false, false, []⟩, d) ↔
        ¬ glueMark <:+: s.toList) := by
  have hOneLine : IsOneLine (embraced (inQuotes s.toList)) := by
    rw [embraced, IsOneLine, List.forall_mem_cons,
      List.forall_mem_append, List.forall_mem_singleton]
    exact ⟨by decide, isOneLine_inQuotes hLine, by decide⟩
  refine ⟨?_, ?_, ?_⟩
  · intro line d
    rw [readScriptLine_inQuotes]
    rfl
  · intro d
    rw [classifyScript_of_isOneLine (by simp [embraced])
      hOneLine (readScriptLine_inQuotes s.toList 1)]
    rfl
  · intro line d
    have hRead := readLine_inQuotes s line d
    refine ⟨hRead, ?_⟩
    rw [hRead, ← dropGlue_eq_self_iff, ← String.ofList_eq]
    simp only [Except.ok.injEq, Prod.mk.injEq,
      ContentLine.mk.injEq, List.cons.injEq,
      Fragment.insertion.injEq, Expr.literal.injEq,
      Value.string.injEq, and_true]

/- Marks of all kinds in quotes are told as they are. -/
theorem quoted_lines_are_insertions_marks :
    IsOneLine "// # -> \x7b|:[ \"\\ > <".toList ∧
      (readLine 3 (embraced (inQuotes
        "// # -> \x7b|:[ \"\\ > <".toList))).run ⟨[], 0⟩ =
          .ok (⟨[.insertion (.literal (.string
            "// # -> \x7b|:[ \"\\ > <"))], 3, false, false,
              []⟩, ⟨[], 0⟩) := by
  have hLine : IsOneLine "// # -> \x7b|:[ \"\\ > <".toList := by
    simp [IsOneLine, isLineBreak]
  have hNone :
      ¬ glueMark <:+: "// # -> \x7b|:[ \"\\ > <".toList := by
    decide
  exact ⟨hLine,
    ((quoted_lines_are_insertions_iff _ hLine).2.2 3
      ⟨[], 0⟩).2.mpr hNone⟩

/- Glue in quotes is lost: a text of glue becomes empty. -/
theorem quoted_line_loses_glue :
    IsOneLine "<>".toList ∧
      (readLine 1 (embraced (inQuotes "<>".toList))).run
          ⟨[], 0⟩ =
        .ok (⟨[.insertion (.literal (.string ""))], 1, false,
          false, []⟩, ⟨[], 0⟩) ∧
      (readLine 1 (embraced (inQuotes "<>".toList))).run
          ⟨[], 0⟩ ≠
        .ok (⟨[.insertion (.literal (.string "<>"))], 1, false,
          false, []⟩, ⟨[], 0⟩) := by
  have hRead := readLine_inQuotes "<>" 1 ⟨[], 0⟩
  refine ⟨by simp [IsOneLine, isLineBreak], hRead, ?_⟩
  rw [hRead]
  simp [dropGlue]

end BranchingStory
