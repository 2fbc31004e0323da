import BranchingStory.Proofs.QuotedInsertions

/-
  This file shows what becomes of a quoted text that a variable
  is declared or set with, and of a comment after it.  Quotes
  outside braces hide nothing from the search for a comment: it
  finds two slashes in the text, and a brace that the text
  opens lets the quote that ends it hide the comment instead.

  Key definitions include:
    * `SettingKind`
    * `settingLine`
    * `openBraces`

  Key theorems include:
    * `cutComment_escape`
    * `cutComment_escape_slashes`
    * `readScriptLine_settingLine`
    * `settings_keep_quoted_texts_iff`
-/

------------------------------------------------------------
-- Lines That Set Variables
------------------------------------------------------------

namespace BranchingStory

/- The kinds of lines that give a variable its value. -/
inductive SettingKind where
  | var
  | const
  | assign
deriving DecidableEq, Repr

/- What such a line begins with. -/
def SettingKind.opening : SettingKind → List Char
  | .var => ['V', 'A', 'R', ' ']
  | .const => ['C', 'O', 'N', 'S', 'T', ' ']
  | .assign => ['~', ' ']

/- The kind of logical line that it is. -/
def SettingKind.kind : SettingKind → LineKind
  | .var => .declaration false
  | .const => .declaration true
  | .assign => .assignment

/- What comes before the value of a variable. -/
def settingHead
    (n : List Char) : List Char :=
  n ++ [' ', '=', ' ']

/- A variable and a quoted text that it is set to. -/
def settingText
    (n s : List Char) : List Char :=
  settingHead n ++ inQuotes s

/- A comment at the end of a line, with blanks around its mark. -/
def commentTail : Option (List Char) → List Char
  | none => []
  | some c => ' ' :: (commentMark ++ ' ' :: c)

/- A line that sets a variable to a text, maybe with a comment. -/
def settingLine
    (k : SettingKind)
    (n s : List Char)
    (comment : Option (List Char)) : List Char :=
  k.opening ++ (settingText n s ++ commentTail comment)

end BranchingStory

------------------------------------------------------------
-- Comments In Quotes
------------------------------------------------------------

namespace BranchingStory

/-
  How many braces are open after a character, if so many are
  before it.  A brace that closes none changes nothing.
-/
def afterBrace
    (depth : Nat)
    (c : Char) : Nat :=
  if c = '{' then depth + 1
  else if c = '}' then depth - 1
  else depth

/- How many braces a text leaves open. -/
def openBraces
    (cs : List Char) : Nat :=
  cs.foldl afterBrace 0

/-
  A character of an escaped text that begins no comment is
  passed over, and counted if it is a brace.
-/
theorem cutComment_escape_cons
    {c : Char}
    {cs : List Char}
    (hApart : ¬ (c = '/' ∧ cs.head? = some '/'))
    (depth : Nat)
    (rest : List Char) :
    cutComment depth false (escape (c :: cs) ++ '"' :: rest) =
      (escape [c] ++ (cutComment (afterBrace depth c) false
          (escape cs ++ '"' :: rest)).1,
        (cutComment (afterBrace depth c) false
          (escape cs ++ '"' :: rest)).2) := by
  rw [escape, escape, escape]
  split
  · next hSpecial =>
      have hSame : afterBrace depth c = depth := by
        rcases hSpecial with rfl | rfl <;> rfl
      rw [hSame, List.cons_append, List.cons_append, cutComment]
      rfl
  · next hPlain =>
      rw [not_or] at hPlain
      have hSlashes :
          ¬ (c = '/' ∧
            (escape cs ++ '"' :: rest).head? = some '/') := by
        rwa [head?_escape (by decide) (by decide)]
      rw [List.cons_append, cutComment,
        if_neg Bool.false_ne_true, afterBrace]
      · by_cases hOpen : c = '{'
        · rw [if_pos hOpen, if_pos hOpen]
          rfl
        · rw [if_neg hOpen, if_neg hOpen]
          by_cases hClose : c = '}'
          · rw [if_pos hClose, if_pos hClose]
            rfl
          · rw [if_neg hClose, if_neg hClose,
              if_neg fun hQuote => hPlain.1 hQuote.1,
              if_neg hSlashes]
            rfl
      · intro hLast
        exact absurd hLast hPlain.2
      · intro c' cs' hLast
        exact absurd hLast hPlain.2

/- Without two slashes a text begins no comment anywhere. -/
theorem not_commentMark_cons
    {c : Char}
    {cs : List Char}
    (hNone : ¬ commentMark <:+: c :: cs) :
    ¬ (c = '/' ∧ cs.head? = some '/') ∧
      ¬ commentMark <:+: cs := by
  rw [List.infix_cons_iff, not_or] at hNone
  refine ⟨?_, hNone.2⟩
  rintro ⟨rfl, hHead⟩
  cases cs with
  | nil => cases hHead
  | cons c' cs =>
      cases hHead
      exact hNone.1 ⟨cs, rfl⟩

/-
  An escaped text without two slashes is passed over.  What
  counts after it are the braces that it leaves open.
-/
theorem cutComment_escape
    {cs : List Char}
    (hNone : ¬ commentMark <:+: cs)
    (depth : Nat)
    (rest : List Char) :
    cutComment depth false (escape cs ++ '"' :: rest) =
      (escape cs ++ (cutComment (cs.foldl afterBrace depth)
          false ('"' :: rest)).1,
        (cutComment (cs.foldl afterBrace depth) false
          ('"' :: rest)).2) := by
  induction cs generalizing depth with
  | nil => rfl
  | cons c cs ih =>
      rcases not_commentMark_cons hNone with ⟨hApart, hRest⟩
      have hCons : escape (c :: cs) = escape [c] ++ escape cs := by
        rw [escape, escape, escape]
        split <;> rfl
      rw [cutComment_escape_cons hApart, ih hRest, hCons,
        List.append_assoc, List.foldl_cons]

/- The same for a text outside braces. -/
theorem cutComment_escape_outside
    {cs : List Char}
    (hNone : ¬ commentMark <:+: cs)
    (rest : List Char) :
    cutComment 0 false (escape cs ++ '"' :: rest) =
      (escape cs ++ (cutComment (openBraces cs) false
          ('"' :: rest)).1,
        (cutComment (openBraces cs) false ('"' :: rest)).2) :=
  cutComment_escape hNone 0 rest

/- Two slashes in an escaped text are taken for a comment. -/
theorem cutComment_escape_slashes
    {cs : List Char}
    (hSome : commentMark <:+: cs)
    (depth : Nat)
    (rest : List Char) :
    (cutComment depth false (escape cs ++ '"' :: rest)).1.length <
      (escape cs).length := by
  induction cs generalizing depth with
  | nil => cases hSome.length_le
  | cons c cs ih =>
      by_cases hHere : c = '/' ∧ cs.head? = some '/'
      · rcases hHere with ⟨rfl, hHead⟩
        have hCut :
            cutComment depth false
                ('/' :: (escape cs ++ '"' :: rest)) =
              ([], some ((escape cs ++ '"' :: rest).drop 1)) := by
          rw [cutComment, if_neg Bool.false_ne_true,
            if_neg (by decide), if_neg (by decide),
            if_neg fun hQuote => absurd hQuote.1 (by decide),
            if_pos ⟨rfl, (head?_escape (by decide) (by decide)
              cs rest).mpr hHead⟩]
          · rintro ⟨⟩
          · rintro c' cs' ⟨⟩
        rw [escape, if_neg (by decide), List.cons_append, hCut]
        exact Nat.succ_pos _
      · have hRest : commentMark <:+: cs := by
          by_contra hNone
          rw [List.infix_cons_iff] at hSome
          rcases hSome with ⟨after, hSame⟩ | hLater
          · cases hSame
            exact hHere ⟨rfl, rfl⟩
          · exact hNone hLater
        have hShort := ih hRest (afterBrace depth c)
        rw [cutComment_escape_cons hHere, List.length_append,
          escape, escape, escape]
        split
        · simp only [List.length_cons, List.length_nil]
          omega
        · simp only [List.length_cons, List.length_nil]
          omega

end BranchingStory

------------------------------------------------------------
-- Classification
------------------------------------------------------------

namespace BranchingStory

open Reading

variable {n cs : List Char}

/- What comes before the value is ignored. -/
theorem settingHead_all_isIgnored
    (hName : isName n = true) :
    (settingHead n).all isIgnored = true := by
  rw [settingHead, List.all_append, Bool.and_eq_true]
  refine ⟨?_, by decide⟩
  rw [List.all_eq_true]
  intro c hMem
  have hNone :
      ['\\', '"', '{', '}', '/'].all (!isWordChar ·) = true := by
    decide +kernel
  rw [isIgnored, Bool.not_eq_true', ← Bool.not_eq_true,
    List.contains_iff_mem]
  intro hSign
  have hOther := List.all_eq_true.mp hNone c hSign
  rw [Bool.not_eq_true'] at hOther
  exact ne_of_isName hName hOther hMem

/-
  The kind and the text of a line that sets a variable, once
  its comment is cut.
-/
theorem classifyLine_opening
    (k : SettingKind)
    (line : Nat)
    (cs : List Char) :
    classifyLine line (k.opening ++ cs) =
      return some ⟨k.kind, line, String.ofList (trim cs)⟩ := by
  cases k with
  | var => rfl
  | const => rfl
  | assign => rfl

/- Blanks are trimmed only where the value ends. -/
theorem trim_opening
    {c : Char}
    (hSolid : isBlank c = false)
    (k : SettingKind)
    (cs : List Char) :
    trim (k.opening ++ c :: cs) = k.opening ++ trim (c :: cs) := by
  have hStart :
      trimStart (k.opening ++ c :: cs) = k.opening ++ c :: cs := by
    cases k with
    | _ => exact trimStart_cons (by decide) _
  rw [trim, trim, hStart, trimStart_cons hSolid,
    trimEnd_append_cons hSolid,
    ← List.nil_append (c :: cs), trimEnd_append_cons hSolid,
    List.nil_append]

/- To trim a text twice is to trim it once. -/
theorem trim_trim_cons
    {c : Char}
    (hSolid : isBlank c = false)
    (cs : List Char) :
    trim (trim (c :: cs)) = trim (c :: cs) := by
  have hOnce : trim (c :: cs) = c :: trimEnd cs := by
    rw [trim, trimStart_cons hSolid]
    exact trimEnd_append_cons hSolid [] cs
  have hTwice : trimEnd (trimEnd cs) = trimEnd cs := by
    rw [trimEnd, trimEnd, List.reverse_reverse,
      List.dropWhile_idempotent]
  rw [hOnce, trim, trimStart_cons hSolid]
  exact (trimEnd_append_cons hSolid [] _).trans (by rw [hTwice]; rfl)

/-
  What a line that sets a variable to a quoted text is read
  as: the comment is looked for in the text and after it.
-/
theorem readScriptLine_settingLine
    (k : SettingKind)
    (hName : isName n = true)
    (s : List Char)
    (comment : Option (List Char))
    (line : Nat)
    (d : Draft) :
    (readScriptLine line (settingLine k n s comment)).run d =
      .ok (some ⟨k.kind, line, String.ofList (trim
        (settingHead n ++ '"' :: (cutComment 0 false
          (escape s ++ '"' :: commentTail comment)).1))⟩,
        ⟨d.issues ++ reminders line (cutComment 0 false
          (escape s ++ '"' :: commentTail comment)).2,
            d.numbered⟩) := by
  have hOpening : k.opening.all isIgnored = true := by
    cases k <;> decide
  have hCut :
      cutComment 0 false (settingLine k n s comment) =
        (k.opening ++ (settingHead n ++ '"' ::
          (cutComment 0 false
            (escape s ++ '"' :: commentTail comment)).1),
          (cutComment 0 false
            (escape s ++ '"' :: commentTail comment)).2) := by
    have hQuote (cs : List Char) :
        cutComment 0 false ('"' :: cs) =
          consBeforeCut '"' (cutComment 0 false cs) := rfl
    rw [settingLine, settingText, inQuotes,
      cutComment_ignored hOpening, List.append_assoc,
      cutComment_ignored (settingHead_all_isIgnored hName),
      List.cons_append, List.append_assoc, List.singleton_append,
      hQuote, consBeforeCut]
  rcases exists_cons_of_isName hName with ⟨c, rest, hCons, hSolid⟩
  refine run_bind_ok.mpr ⟨_, _, run_dropComment line _ d, ?_⟩
  rw [hCut]
  generalize cutComment 0 false
    (escape s ++ '"' :: commentTail comment) = parts
  -- Both times, only the end of the value is trimmed.
  have hTrim :
      trim (k.opening ++ (settingHead n ++ '"' :: parts.1)) =
        k.opening ++ trim (settingHead n ++ '"' :: parts.1) := by
    rw [settingHead, hCons]
    exact trim_opening hSolid k _
  have hTwice :
      trim (trim (settingHead n ++ '"' :: parts.1)) =
        trim (settingHead n ++ '"' :: parts.1) := by
    rw [settingHead, hCons]
    exact trim_trim_cons hSolid _
  have hClassify :=
    classifyLine_opening k line
      (trim (settingHead n ++ '"' :: parts.1))
  rw [hTwice] at hClassify
  dsimp only
  rw [hTrim]
  cases k with
  | _ => exact congrArg (StateT.run · _) hClassify

end BranchingStory

------------------------------------------------------------
-- Values That Are Kept
------------------------------------------------------------

namespace BranchingStory

variable {n s : List Char}
variable {comment : Option (List Char)}

/- Only blanks after the value are trimmed. -/
theorem trim_settingText
    (hName : isName n = true)
    {gap : List Char}
    (hGap : ∀ c ∈ gap, isBlank c = true) :
    trim (settingText n s ++ gap) = settingText n s := by
  rcases exists_cons_of_isName hName with ⟨c, rest, rfl, hSolid⟩
  have hLast :
      settingText (c :: rest) s =
        (settingHead (c :: rest) ++ '"' :: escape s) ++ ['"'] := by
    rw [settingText, inQuotes, List.append_assoc]
    rfl
  have hStart :
      trimStart (settingText (c :: rest) s ++ gap) =
        settingText (c :: rest) s ++ gap :=
    trimStart_cons hSolid _
  rw [trim, hStart, trimEnd_append_of_isBlank hGap, hLast,
    trimEnd_append_cons (by decide)]
  rfl

/-
  Without two slashes in the text the comment is found, unless
  a brace of the text is left open.
-/
theorem cutComment_value
    (hNone : ¬ commentMark <:+: s)
    (hClosed : comment = none ∨ openBraces s = 0) :
    ∃ gap, (∀ c ∈ gap, isBlank c = true) ∧
      cutComment 0 false (escape s ++ '"' :: commentTail comment) =
        (escape s ++ '"' :: gap, comment.map (' ' :: ·)) := by
  rw [cutComment_escape_outside hNone]
  cases comment with
  | none =>
      refine ⟨[], by simp, ?_⟩
      cases openBraces s with
      | zero => rfl
      | succ m => rfl
  | some c =>
      have hZero : openBraces s = 0 := hClosed.resolve_left nofun
      refine ⟨[' '], ?_, ?_⟩
      · rw [List.forall_mem_singleton]
        decide
      · rw [hZero]
        rfl

/- With a brace left open, the comment stays with the value. -/
theorem trim_value_open
    (hName : isName n = true)
    (hNone : ¬ commentMark <:+: s)
    (hOpen : openBraces s ≠ 0)
    (c : List Char) :
    (settingText n s).length <
      (trim (settingHead n ++ '"' :: (cutComment 0 false
        (escape s ++ '"' :: commentTail (some c))).1)).length := by
  rcases Nat.exists_eq_succ_of_ne_zero hOpen with ⟨m, hDepth⟩
  have hKept :
      (cutComment 0 false
        (escape s ++ '"' :: commentTail (some c))).1 =
          escape s ++ '"' :: ' ' :: '/' :: '/' ::
            (cutComment (m + 1) true (' ' :: c)).1 := by
    rw [cutComment_escape_outside hNone, hDepth]
    rfl
  have hTrim (rest : List Char) :
      trim (settingHead n ++ '"' ::
          (escape s ++ '"' :: ' ' :: '/' :: '/' :: rest)) =
        (settingText n s ++ [' ', '/']) ++ '/' ::
          trimEnd rest := by
    rcases exists_cons_of_isName hName with
      ⟨d, ds, rfl, hSolid⟩
    rw [← trimEnd_append_cons (by decide)]
    have hSame :
        settingText (d :: ds) s ++ [' ', '/'] ++ '/' :: rest =
          settingHead (d :: ds) ++ '"' ::
            (escape s ++ '"' :: ' ' :: '/' :: '/' :: rest) := by
      simp [settingText, inQuotes]
    rw [hSame, trim, settingHead, List.append_assoc,
      List.cons_append, trimStart_cons hSolid]
  rw [hKept, hTrim, List.length_append, List.length_append]
  simp only [List.length_cons, List.length_nil]
  omega

/-
  What is left of a line that sets a variable to a text is the
  variable and the text if and only if there are no two slashes
  in the text, and no brace that it leaves open before a
  comment.
-/
theorem trim_value_iff
    (hName : isName n = true) :
    trim (settingHead n ++ '"' :: (cutComment 0 false
        (escape s ++ '"' :: commentTail comment)).1) =
          settingText n s ↔
      ¬ commentMark <:+: s ∧
        (comment = none ∨ openBraces s = 0) := by
  constructor
  · intro hSame
    have hNone : ¬ commentMark <:+: s := by
      intro hSome
      have hShort :=
        cutComment_escape_slashes hSome 0 (commentTail comment)
      have hTrim := (trim_sublist
        (settingHead n ++ '"' :: (cutComment 0 false
          (escape s ++ '"' :: commentTail comment)).1)).length_le
      rw [hSame, settingText, inQuotes] at hTrim
      simp only [List.length_append, List.length_cons] at hTrim
      omega
    refine ⟨hNone, ?_⟩
    cases comment with
    | none => exact Or.inl rfl
    | some c =>
        refine Or.inr ?_
        by_contra hOpen
        have hLong := trim_value_open hName hNone hOpen c
        rw [hSame] at hLong
        exact Nat.lt_irrefl _ hLong
  · rintro ⟨hNone, hClosed⟩
    rcases cutComment_value hNone hClosed with ⟨gap, hGap, hCut⟩
    have hSame :
        settingHead n ++ '"' :: (escape s ++ '"' :: gap) =
          settingText n s ++ gap := by
      simp [settingText, inQuotes]
    rw [hCut, hSame, trim_settingText hName hGap]

end BranchingStory

------------------------------------------------------------
-- Values That Are Read
------------------------------------------------------------

namespace BranchingStory

open Reading

variable {n : List Char}

/- A text in quotes is not trimmed. -/
theorem trim_inQuotes
    (cs : List Char) :
    trim (inQuotes cs) = inQuotes cs :=
  trim_of_ends (c := '"') (d := '"') rfl (by decide)
    (by rw [inQuotes, ← List.cons_append, List.getLast?_concat])
    (by decide)

/- A text in quotes is the literal of the text. -/
theorem readLiteral_inQuotes
    (s : String) :
    readLiteral (String.ofList (inQuotes s.toList)) =
      .ok (.string s) := by
  have hNoWord :
      boolOfWord? (String.ofList (inQuotes s.toList)) = none :=
    boolOfWord?_eq_none _ (by decide)
  have hBody :
      (inQuotes s.toList).reverse =
        '"' :: ((escape s.toList).reverse ++ ['"']) := by
    simp [inQuotes]
  have hQuoted :
      readQuoted (inQuotes s.toList) = .ok (.string s) := by
    rw [readQuoted, hBody]
    cases hRest : (escape s.toList).reverse ++ ['"'] with
    | nil => simp at hRest
    | cons c rest =>
        have hChars :
            (c :: rest).reverse.drop 1 = escape s.toList := by
          rw [← hRest]
          simp
        change Except.ok (Value.string (String.ofList (unescape
          ((c :: rest).reverse.drop 1)))) = _
        rw [hChars, unescape_escape, String.ofList_toList]
  rw [readLiteral, hNoWord, String.toList_ofList, inQuotes]
  exact hQuoted

/- What stands before the value is split off at the sign. -/
theorem breakAt_settingText
    (hName : isName n = true)
    (s : List Char) :
    breakAt '=' (settingText n s) =
      (n ++ [' '], some (' ' :: inQuotes s)) := by
  have hMark : '=' ∉ n ++ [' '] := by
    rw [List.mem_append, not_or]
    exact ⟨ne_of_isName hName (by decide +kernel), by decide⟩
  rw [← breakAt_append hMark, settingText, settingHead]
  simp

/- A declaration of a text is read as its name and the text. -/
theorem readDeclaration_settingText
    (hName : isName n = true)
    (s : String)
    (line : Nat)
    (d : Draft) :
    (readDeclaration line (settingText n s.toList)).run d =
      .ok (some (String.ofList n, .string s), d) := by
  have hTrim : trim (n ++ [' ']) = n := by
    have hWord := trim_of_isName hName
    have hGap : ∀ c ∈ [' '], isBlank c = true := by
      rw [List.forall_mem_singleton]
      decide
    rcases exists_cons_of_isName hName with
      ⟨c, rest, rfl, hSolid⟩
    have hStart :
        trimStart (c :: rest ++ [' ']) = c :: rest ++ [' '] :=
      trimStart_cons hSolid _
    rw [trim, hStart, trimEnd_append_of_isBlank hGap]
    rwa [trim, trimStart_cons hSolid] at hWord
  have hValue :
      trim (' ' :: inQuotes s.toList) = inQuotes s.toList :=
    trim_inQuotes s.toList
  rw [readDeclaration, breakAt_settingText hName]
  dsimp only
  rw [hTrim, hName, if_pos rfl, hValue, readLiteral_inQuotes]
  rfl

/- An assignment of a text is read as its name and literal. -/
theorem readAssignment_settingText
    (hName : isName n = true)
    (s : String)
    (line : Nat)
    (d : Draft) :
    (readAssignment line (settingText n s.toList)).run d =
      .ok (some (String.ofList n, .literal (.string s)), d) := by
  have hTrim :
      trim (settingText n s.toList) = settingText n s.toList := by
    have hGap :
        trim (settingText n s.toList ++ []) =
          settingText n s.toList :=
      trim_settingText hName (by simp)
    rwa [List.append_nil] at hGap
  have hRun := isRun_of_isName hName
  have hStop (c : Char)
      (hHead :
        (' ' :: '=' :: ' ' :: inQuotes s.toList).head? =
          some c) :
      isWordChar c = false := by
    cases hHead
    decide +kernel
  rcases takeWhile_of_isRun hRun hStop with ⟨hTake, hDrop⟩
  have hSame :
      settingText n s.toList =
        n ++ ' ' :: '=' :: ' ' :: inQuotes s.toList := by
    simp [settingText, settingHead]
  have hSome : n.isEmpty = false :=
    List.isEmpty_eq_false_iff.mpr hRun.1
  have hParts :
      assignmentParts?
        (trimStart (' ' :: '=' :: ' ' :: inQuotes s.toList)) =
          some (none, inQuotes s.toList) := rfl
  rw [readAssignment, hTrim, hSame, hTake, hDrop, hParts, hSome,
    ← print_string]
  have hReadable :
      (Expr.literal (.string s)).IsReadable line := trivial
  exact run_bind_ok.mpr
    ⟨_, _, readExpr?_print hReadable d, rfl⟩

/-
  A line that declares a variable or a constant, or sets a
  variable, to a text in quotes, with its quotes and backslashes
  escaped, and maybe with a comment after it: it is read as the
  line of its kind whose text is the variable and the quoted
  text if and only if there are no two slashes in the text and,
  before a comment, no brace that the text leaves open.  Then
  the only issue is the reminder that the comment may be.  The
  text of the line is always read as the variable and the value
  that it says, without an issue.
-/
theorem settings_keep_quoted_texts_iff
    (k : SettingKind)
    {n : List Char}
    (hName : isName n = true)
    (s : String) :
    (∀ comment line d,
      ((∃ d', (readScriptLine line
          (settingLine k n s.toList comment)).run d =
            .ok (some ⟨k.kind, line, String.ofList
              (settingText n s.toList)⟩, d')) ↔
        ¬ commentMark <:+: s.toList ∧
          (comment = none ∨ openBraces s.toList = 0)) ∧
      (¬ commentMark <:+: s.toList →
        (comment = none ∨ openBraces s.toList = 0) →
        (readScriptLine line
          (settingLine k n s.toList comment)).run d =
            .ok (some ⟨k.kind, line, String.ofList
              (settingText n s.toList)⟩,
              ⟨d.issues ++ reminders line comment,
                d.numbered⟩))) ∧
    ∀ line d,
      (readDeclaration line (settingText n s.toList)).run d =
          .ok (some (String.ofList n, .string s), d) ∧
      (readAssignment line (settingText n s.toList)).run d =
          .ok (some (String.ofList n, .literal (.string s)),
            d) := by
  refine ⟨?_, ?_⟩
  · intro comment line d
    have hRead :=
      readScriptLine_settingLine k hName s.toList comment line d
    refine ⟨?_, ?_⟩
    · rw [← trim_value_iff hName, hRead]
      constructor
      · rintro ⟨d', hSame⟩
        simp only [Except.ok.injEq, Prod.mk.injEq,
          Option.some.injEq, ScriptLine.mk.injEq,
          String.ofList_inj, true_and] at hSame
        exact hSame.1
      · intro hSame
        rw [hSame]
        exact ⟨_, rfl⟩
    · intro hNone hClosed
      have hText := (trim_value_iff hName).mpr ⟨hNone, hClosed⟩
      rcases cutComment_value hNone hClosed with ⟨gap, _, hCut⟩
      have hNotes :
          reminders line (comment.map (' ' :: ·)) =
            reminders line comment := by
        cases comment with
        | none => rfl
        | some c => rfl
      rw [hRead, hText, hCut, hNotes]
  · intro line d
    exact ⟨readDeclaration_settingText hName s line d,
      readAssignment_settingText hName s line d⟩

/- Braces, quotes, bars and single slashes before a reminder. -/
theorem settings_keep_quoted_texts_marks :
    isName ['n'] = true ∧
      (readScriptLine 7 (settingLine .const ['n']
        "\x7b \"/|\\/ # \x7d".toList
          (some "TODO: ask".toList))).run ⟨[], 0⟩ =
        .ok (some ⟨.declaration true, 7, String.ofList
          (settingText ['n'] "\x7b \"/|\\/ # \x7d".toList)⟩,
            ⟨[⟨.todo "ask", 7⟩], 0⟩) := by
  have hName : isName ['n'] = true := by decide +kernel
  have hNone :
      ¬ commentMark <:+: "\x7b \"/|\\/ # \x7d".toList := by
    decide
  have hClosed :
      openBraces "\x7b \"/|\\/ # \x7d".toList = 0 := by
    decide
  have hNote :
      reminders 7 (some "TODO: ask".toList) =
        [⟨.todo "ask", 7⟩] := by
    decide +kernel
  have hRead :=
    (((settings_keep_quoted_texts_iff .const hName
      "\x7b \"/|\\/ # \x7d").1 (some "TODO: ask".toList) 7
        ⟨[], 0⟩).2 hNone (Or.inr hClosed))
  rw [hNote] at hRead
  exact ⟨hName, hRead⟩

/-
  Two slashes in a quoted text cut it, and a brace that it
  leaves open keeps the comment.
-/
theorem quoted_values_are_cut :
    isName ['n'] = true ∧
      (∀ d', (readScriptLine 1 (settingLine .var ['n']
          "a//b".toList none)).run ⟨[], 0⟩ ≠
        .ok (some ⟨.declaration false, 1, String.ofList
          (settingText ['n'] "a//b".toList)⟩, d')) ∧
      (readScriptLine 1 (settingLine .var ['n']
          "a//b".toList none)).run ⟨[], 0⟩ =
        .ok (some ⟨.declaration false, 1, "n = \"a"⟩,
          ⟨[], 0⟩) ∧
      (readScriptLine 1 (settingLine .assign ['n']
          "\x7b".toList (some ['c']))).run ⟨[], 0⟩ =
        .ok (some ⟨.assignment, 1, "n = \"\x7b\" // c"⟩,
          ⟨[], 0⟩) := by
  have hCut :
      (readScriptLine 1 (settingLine .var ['n']
          "a//b".toList none)).run ⟨[], 0⟩ =
        .ok (some ⟨.declaration false, 1, "n = \"a"⟩,
          ⟨[], 0⟩) := by
    decide +kernel
  refine ⟨by decide +kernel, ?_, hCut, by decide +kernel⟩
  intro d' hSame
  rw [hCut] at hSame
  simp [settingText, settingHead, inQuotes, escape] at hSame

end BranchingStory
