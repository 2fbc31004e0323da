import BranchingStory.Play.Follow
import BranchingStory.Proofs.Blame
import BranchingStory.Proofs.Scanning

/-
  This file shows what becomes of the lines of a script that
  use what is not supported: statements that include other
  scripts or declare functions from outside, headers of
  functions, threads, and tunnels.  A script with such a line
  is refused with an error about it, unless one of two slips
  lets the line pass: the keyword of a statement is only known
  in front of a space, and a thread only at the start of a
  line.

  Key definitions include:
    * `lineBody`
    * `NamesStatement`
    * `NamesFunction`
    * `IsThread`
    * `IsTunnel`
    * `IsUnsupported`
    * `IsCaught`

  Key theorems include:
    * `topLevelFrom_of_takeBraced?`
    * `readConditions_keepsArrows`
    * `add_blames_of_isTunnel`
    * `readScriptLine_blames`
    * `passesAsText_of_not_isCaught`
    * `unsupported_lines_are_refused`
-/

------------------------------------------------------------
-- What Is Not Supported
------------------------------------------------------------

namespace BranchingStory

open scoped List

/- The content of a line: no comment, no blanks at its ends. -/
def lineContent
    (cs : List Char) : List Char :=
  trim (cutComment 0 false cs).1

/- The first word of a line, up to a blank of any kind. -/
def firstWord
    (cs : List Char) : List Char :=
  cs.takeWhile fun c => !isBlank c

/-
  The body of a line: what comes after the marks of a choice
  or a gather.
-/
def lineBody : List Char → List Char
  | '*' :: rest =>
      trim (('*' :: rest).dropWhile fun c =>
        isChoiceMark c || isBlank c)
  | '+' :: rest =>
      trim (('+' :: rest).dropWhile fun c =>
        isChoiceMark c || isBlank c)
  | '-' :: '>' :: rest => '-' :: '>' :: rest
  | '-' :: rest => trim (takeDashes ('-' :: rest)).2
  | cs => cs

/- The parts of a body between its arrows outside braces. -/
def arrowParts
    (body : List Char) : List (List Char) :=
  (topLevel (splitTags body).1).splitArrows

/- The keywords of statements that are not supported. -/
def unsupportedKeywords : List String :=
  ["INCLUDE", "EXTERNAL"]

/- Whether a line is a statement that is not supported. -/
def NamesStatement
    (cs : List Char) : Prop :=
  String.ofList (firstWord cs) ∈ unsupportedKeywords

/-
  Whether a line is the header of a function: the first word
  of the name is "function", and another word comes after it.
-/
def NamesFunction
    (cs : List Char) : Prop :=
  ['=', '='] <+: cs ∧
    ∃ b rest, isBlank b = true ∧
      headerName cs = "function".toList ++ b :: rest

/- Whether a line is a thread, maybe after marks. -/
def IsThread
    (cs : List Char) : Prop :=
  ['<', '-'] <+: lineBody cs

/-
  Whether a line sets a variable.  An arrow in it belongs to a
  value, and is no divert.
-/
def SetsVariable
    (cs : List Char) : Prop :=
  ['~'] <+: cs ∨ "VAR ".toList <+: cs ∨ "CONST ".toList <+: cs

/- Whether a line has two diverts outside braces. -/
def IsTunnel
    (cs : List Char) : Prop :=
  ¬ SetsVariable cs ∧ 2 < (arrowParts (lineBody cs)).length

/- Whether a line uses what is not supported. -/
def IsUnsupported
    (cs : List Char) : Prop :=
  NamesStatement cs ∨ NamesFunction cs ∨ IsThread cs ∨
    IsTunnel cs

/-
  Whether what is not supported is noticed: the keyword of a
  statement only if a space comes after it, or nothing, and a
  thread only without marks.
-/
def IsCaught
    (cs : List Char) : Prop :=
  (NamesStatement cs ∧
    (cs = firstWord cs ∨
      ∃ rest, cs = firstWord cs ++ ' ' :: rest)) ∨
  NamesFunction cs ∨ ['<', '-'] <+: cs ∨ IsTunnel cs

end BranchingStory

------------------------------------------------------------
-- Arrows
------------------------------------------------------------

namespace BranchingStory

open Reading
open scoped List

/- A text has always a part before its first arrow. -/
theorem Marked.splitArrows_ne_nil
    (ms : Marked) :
    ms.splitArrows ≠ [] := by
  fun_induction splitArrows ms with
  | case1 => simp
  | case2 => simp
  | case3 c isOpen rest _ ih =>
      cases hRest : splitArrows rest with
      | nil => exact absurd hRest ih
      | cons part parts => simp [consToFirst]

/- What cannot begin an arrow adds none. -/
theorem Marked.length_splitArrows_append
    {ms : Marked}
    (hNone : ('-', true) ∉ ms)
    (ns : Marked) :
    (splitArrows (ms ++ ns)).length =
      ns.splitArrows.length := by
  rcases List.exists_cons_of_ne_nil
    ns.splitArrows_ne_nil with ⟨part, parts, hRest⟩
  rw [splitArrows_append hNone hRest, hRest]
  rfl

/- Only a text with a dash has an arrow. -/
theorem dash_mem_of_arrowParts
    {body : List Char}
    (hTwo : 2 < (arrowParts body).length) :
    '-' ∈ body := by
  by_contra hNone
  have hOpen : ('-', true) ∉ topLevel (splitTags body).1 := by
    intro hMem
    have hChar : '-' ∈ (topLevel (splitTags body).1).chars :=
      List.mem_map_of_mem hMem
    rw [chars_topLevel] at hChar
    exact hNone ((splitTags_sublist body).subset hChar)
  rw [arrowParts, Marked.splitArrows_of_notMem hOpen] at hTwo
  simp at hTwo

/- A line is blamed unless it has one divert at the most. -/
theorem readDivert_blames
    (cs : List Char)
    (line : Nat) :
    (readDivert line cs).Blames line fun _ =>
      (topLevel cs).splitArrows.length ≤ 2 := by
  unfold readDivert
  split
  · next hSplit =>
      rw [hSplit]
      exact Blames.guarded (Blames.pure (Nat.le_refl 2))
  · exact Blames.error_pure rfl _
  · next hOne hMore =>
      refine Blames.pure ?_
      rcases hSplit : (topLevel cs).splitArrows with
        _ | ⟨first, _ | ⟨second, _ | ⟨third, rest⟩⟩⟩
      · exact Nat.zero_le 2
      · exact Nat.le_succ 1
      · exact Nat.le_refl 2
      · exact absurd hSplit (hMore _ _ _ _)

/- A text or a gather with a second divert is blamed. -/
theorem readLine_blames
    {body : List Char}
    (hTwo : 2 < (arrowParts body).length)
    (line : Nat) :
    (readLine line body).Blames line fun _ => False := by
  unfold readLine
  unfold arrowParts at hTwo
  generalize splitTags body = parts at hTwo
  rcases parts with ⟨content, tags⟩
  refine Blames.after
    ((readDivert_blames content line).mono fun _ hOne =>
      absurd hTwo (Nat.not_lt.mpr hOne)) fun r => ?_
  exact Blames.guarded
    (Blames.of_writes (readGlued_writes line _ _ _))

end BranchingStory

------------------------------------------------------------
-- Arrows After Conditions
------------------------------------------------------------

namespace BranchingStory

open Reading
open scoped List

/- Within braces no character outside quotes is open. -/
theorem topLevelFrom_inside
    {c : Char}
    (hEscape : c ≠ '\\')
    {depth : Int}
    (hInside : 0 < depth)
    (rest : List Char) :
    topLevelFrom depth false (c :: rest) =
      (c, false) ::
        topLevelFrom
          (if c = '{' then depth + 1
            else if c = '}' then depth - 1 else depth)
          (c == '"') rest := by
  rw [topLevelFrom, if_neg Bool.false_ne_true]
  · by_cases hOpen : c = '{'
    · subst hOpen
      rfl
    · by_cases hClose : c = '}'
      · subst hClose
        rfl
      · simp only [if_neg hOpen, if_neg hClose]
        by_cases hQuote : c = '"'
        · subst hQuote
          rw [if_pos ⟨rfl, hInside⟩]
          rfl
        · have hOther : (c == '"') = false := by
            simpa using hQuote
          have hShut : decide (depth = 0) = false := by
            simpa using Int.ne_of_gt hInside
          rw [if_neg fun hBoth => hQuote hBoth.1, hOther,
            hShut]
  · intro hLast
    exact absurd hLast hEscape
  · intro c' cs' hLast
    exact absurd hLast hEscape

/- A character that is not taken for an escape is none. -/
theorem ne_backslash
    {c : Char}
    {rest : List Char}
    (hLast : c = '\\' → rest = [] → False)
    (hMore : ∀ c' rest',
      c = '\\' → rest = c' :: rest' → False) :
    c ≠ '\\' := by
  intro hSame
  cases rest with
  | nil => exact hLast hSame rfl
  | cons c' rest => exact hMore c' rest hSame rfl

/-
  A text in braces shows no mark to the outside.  Within the
  braces both scanners shield what quotes hold.
-/
theorem topLevelFrom_of_takeBraced?
    {depth : Nat}
    {quoted : Bool}
    {cs inner rest : List Char}
    (hTaken :
      takeBraced? depth quoted cs = some (inner, rest)) :
    topLevelFrom (depth + 1) quoted cs =
      shield (inner ++ ['}']) ++ topLevel rest := by
  have hBefore {before : List Char} {ms : Marked}
      {found : Option (List Char × List Char)}
      {inner rest : List Char}
      (hFound :
        ∀ {inner' rest'}, found = some (inner', rest') →
          ms = shield (inner' ++ ['}']) ++ topLevel rest')
      (hSome :
        found.map (consBefore before) = some (inner, rest)) :
      shield before ++ ms =
        shield (inner ++ ['}']) ++ topLevel rest := by
    rcases Option.map_eq_some_iff.mp hSome with
      ⟨⟨inner', rest'⟩, hMore, hPair⟩
    cases hPair
    rw [hFound hMore, List.append_assoc,
      shield_append before, List.append_assoc]
  have hInside (depth : Nat) : 0 < (depth : Int) + 1 := by
    omega
  fun_induction takeBraced? depth quoted cs
      generalizing inner rest with
  | case1 =>
      cases hTaken
  | case2 =>
      cases hTaken
  | case3 depth quoted c rest' ih =>
      rw [topLevelFrom]
      exact hBefore ih hTaken
  | case4 depth c rest' hEscape hEscape' ih =>
      rw [topLevelFrom, if_pos rfl]
      · exact hBefore ih hTaken
      · exact hEscape
      · exact hEscape'
  | case5 depth quoted rest' hUnquoted _ _ ih =>
      rw [Bool.eq_false_iff.mpr hUnquoted,
        topLevelFrom_inside (by decide) (hInside depth)]
      exact hBefore ih hTaken
  | case6 depth quoted rest' hUnquoted _ _ _ ih =>
      rw [Bool.eq_false_iff.mpr hUnquoted,
        topLevelFrom_inside (by decide) (hInside depth)]
      exact hBefore ih hTaken
  | case7 quoted rest' hUnquoted _ _ _ _ =>
      cases hTaken
      rw [Bool.eq_false_iff.mpr hUnquoted,
        topLevelFrom_inside (by decide) (hInside 0)]
      rfl
  | case8 quoted rest' hUnquoted depth _ _ _ _ ih =>
      have hLess :
          ((depth + 1 : Nat) : Int) + 1 - 1 = depth + 1 := by
        omega
      rw [Bool.eq_false_iff.mpr hUnquoted,
        topLevelFrom_inside (by decide) (hInside _),
        if_neg (by decide), if_pos rfl, Nat.succ_eq_add_one,
        hLess]
      exact hBefore ih hTaken
  | case9 depth quoted c rest' hEscape hEscape' hUnquoted
      hQuote hOpen hClose ih =>
      have hPlain := ne_backslash hEscape hEscape'
      have hOther : (c == '"') = false := by
        simpa using hQuote
      rw [Bool.eq_false_iff.mpr hUnquoted,
        topLevelFrom_inside hPlain (hInside depth),
        if_neg hOpen, if_neg hClose, hOther]
      exact hBefore ih hTaken

/- A choice without its conditions has all its arrows. -/
theorem length_splitArrows_braced
    {cs inner rest : List Char}
    (hTaken : takeBraced? 0 false cs = some (inner, rest)) :
    (topLevel ('{' :: cs)).splitArrows.length =
      (topLevel rest).splitArrows.length := by
  have hMarks :
      topLevel ('{' :: cs) =
        shield ('{' :: (inner ++ ['}'])) ++ topLevel rest := by
    change ('{', false) :: topLevelFrom (0 + 1) false cs = _
    rw [show (0 + 1 : Int) = (0 : Nat) + 1 from rfl,
      topLevelFrom_of_takeBraced? hTaken]
    rfl
  rw [hMarks, Marked.length_splitArrows_append
    (not_mem_shield _ _)]

/- The blanks at the start of a text hold no arrow. -/
theorem length_splitArrows_trimStart
    (cs : List Char) :
    (topLevel (trimStart cs)).splitArrows.length =
      (topLevel cs).splitArrows.length := by
  induction cs with
  | nil => rfl
  | cons c cs ih =>
      rw [trimStart, List.dropWhile_cons]
      split
      · next hBlank =>
          have hOther (mark : Char)
              (hMark : isBlank mark = false) :
              c ≠ mark := by
            rintro rfl
            rw [hBlank] at hMark
            cases hMark
          have hMarks :
              topLevel (c :: cs) =
                [(c, true)] ++ topLevel cs :=
            topLevelFrom_plain (hOther '\\' (by decide))
              (hOther '"' (by decide))
              (hOther '{' (by decide))
              (hOther '}' (by decide)) 0
          have hNone : ('-', true) ∉ [(c, true)] := by
            rw [List.mem_singleton]
            intro hSame
            exact hOther '-' (by decide)
              (congrArg Prod.fst hSame).symm
          rw [hMarks, Marked.length_splitArrows_append hNone]
          exact ih
      · rfl

/-
  The conditions of a choice hold none of the arrows outside
  braces, so that all of these come after them.
-/
theorem readConditions_keepsArrows
    (line : Nat)
    (cs : List Char) :
    (readConditions line cs).Blames line fun r =>
      (topLevel r.2).splitArrows.length =
        (topLevel cs).splitArrows.length := by
  have hWithin (n : Nat) (cs : List Char) :
      (readConditionsWithin line n cs).Blames line fun r =>
        (topLevel r.2).splitArrows.length =
          (topLevel cs).splitArrows.length := by
    induction n generalizing cs with
    | zero => exact Blames.pure rfl
    | succ n ih =>
        have hStart := length_splitArrows_trimStart cs
        rw [readConditionsWithin]
        split
        · next rest hBrace =>
            rw [hBrace] at hStart
            split
            · exact Blames.error_pure rfl _
            · next inner rest' hTaken =>
                rw [length_splitArrows_braced hTaken] at hStart
                refine Blames.bind
                  (Blames.of_idles (readExpr?_idles line inner))
                  fun e => ?_
                refine Blames.bind (ih rest') fun r => ?_
                exact Blames.pure fun hSame _ =>
                  hSame.trans hStart
        · exact Blames.pure hStart
  exact hWithin (cs.length + 1) cs

/- A choice with a second divert is blamed. -/
theorem readChoice_blames
    {body : List Char}
    (hTwo : 2 < (arrowParts body).length)
    (line : Nat)
    (sticky : Bool) :
    (readChoice line sticky body).Blames line
      fun _ => False := by
  unfold readChoice
  unfold arrowParts at hTwo
  generalize splitTags body = parts at hTwo
  rcases parts with ⟨content, tags⟩
  refine Blames.bind (readConditions_keepsArrows line content)
    fun r => ?_
  rcases r with ⟨conditions, content'⟩
  refine Blames.bind (readDivert_blames content' line)
    fun r => ?_
  have hNever
      (hOne : (topLevel content').splitArrows.length ≤ 2)
      (hSame :
        (topLevel content').splitArrows.length =
          (topLevel content).splitArrows.length) :
      False :=
    Nat.not_lt.mpr hOne (hSame ▸ hTwo)
  refine Blames.bind
    (Blames.of_idles (splitBrackets_sublist line _)) fun r => ?_
  refine Blames.bind
    (Blames.of_writes (readFragments_writes line _))
    fun shown => ?_
  refine Blames.guarded ?_
  refine Blames.bind
    (Blames.of_writes (readGlued_writes line _ _ _))
    fun output => ?_
  exact Blames.pure fun _ _ _ => hNever

end BranchingStory

------------------------------------------------------------
-- Tunnels
------------------------------------------------------------

namespace BranchingStory

open Reading
open scoped List

/- Whether lines of a kind hold text or diverts of the story. -/
def LineKind.holdsText : LineKind → Bool
  | .text => true
  | .divert => true
  | .choice _ _ => true
  | .gather _ => true
  | _ => false

/- Whether a logical line has two diverts. -/
structure ScriptLine.IsTunnel
    (l : ScriptLine) : Prop where
  kind : l.kind.holdsText = true
  arrows : 2 < (arrowParts l.text.toList).length

/- A logical line with two diverts is blamed. -/
theorem add_blames_of_isTunnel
    {l : ScriptLine}
    (hTunnel : l.IsTunnel)
    (b : Builder) :
    (b.add l).Blames l.line fun _ => False := by
  have hText :
      (b.addLine l.line l.text).Blames l.line
        fun _ => False := by
    unfold Builder.addLine
    exact Blames.after (readLine_blames hTunnel.arrows _)
      fun content => Blames.pure trivial
  unfold Builder.add
  rcases hKind : l.kind with
    _ | ⟨depth, sticky⟩ | depth | _ | _ | constant | _ | _ | _
  · exact hText
  · unfold Builder.addChoice
    refine Blames.bind
      (Blames.of_idles (Builder.clampDepth_idles _ _ _))
      fun depth' => ?_
    refine Blames.after
      ((readChoice_blames hTunnel.arrows _ sticky).mono
        fun _ hFalse => hFalse.elim) fun choice => ?_
    dsimp only
    split
    · exact Blames.pure trivial
    · exact Blames.pure trivial
  · unfold Builder.addGather
    refine Blames.bind
      (Blames.of_idles (Builder.clampDepth_idles _ _ _))
      fun depth' => ?_
    have hSome : l.text.isEmpty = false := by
      have hDash := dash_mem_of_arrowParts hTunnel.arrows
      rw [Bool.eq_false_iff]
      intro hEmpty
      rw [String.isEmpty_iff.mp hEmpty] at hDash
      cases hDash
    rw [hSome, if_neg Bool.false_ne_true]
    exact Blames.after
      ((readLine_blames hTunnel.arrows _).mono
        fun _ hFalse => hFalse.elim)
      fun content => Blames.pure trivial
  · exact absurd hTunnel.kind
      (by rw [hKind]; exact Bool.false_ne_true)
  · exact absurd hTunnel.kind
      (by rw [hKind]; exact Bool.false_ne_true)
  · exact absurd hTunnel.kind
      (by rw [hKind]; exact Bool.false_ne_true)
  · exact absurd hTunnel.kind
      (by rw [hKind]; exact Bool.false_ne_true)
  · exact hText
  · exact absurd hTunnel.kind
      (by rw [hKind]; exact Bool.false_ne_true)

end BranchingStory

------------------------------------------------------------
-- Lines That Are Caught
------------------------------------------------------------

namespace BranchingStory

open Reading
open scoped List

variable {cs : List Char}

/- What a caught line may still become without an error. -/
def YieldsTunnel
    (line : Nat)
    (l? : Option ScriptLine) : Prop :=
  ∃ l, l? = some l ∧ l.line = line ∧ l.IsTunnel

/- The keyword of a statement in front of a space is known. -/
theorem classifyLine_statement
    {keyword : String}
    (hKeyword : keyword ∈ unsupportedKeywords)
    {rest : List Char}
    (hRest : rest = [] ∨ ∃ after, rest = ' ' :: after)
    (line : Nat) :
    classifyLine line (keyword.toList ++ rest) = do
      Reading.report (.unsupportedKeyword keyword) line
      return none := by
  have hBreak :
      (breakAt ' ' (keyword.toList ++ rest)).1 =
        keyword.toList := by
    have hSpace : ' ' ∉ keyword.toList := by
      simp only [unsupportedKeywords, List.mem_cons,
        List.not_mem_nil, or_false] at hKeyword
      rcases hKeyword with rfl | rfl <;> decide
    rcases hRest with rfl | ⟨after, rfl⟩
    · rw [List.append_nil, breakAt_of_notMem hSpace]
    · rw [breakAt_append hSpace]
  have hWords :
      classifyLine line (keyword.toList ++ rest) =
        classifyWords line (keyword.toList ++ rest) := by
    simp only [unsupportedKeywords, List.mem_cons,
      List.not_mem_nil, or_false] at hKeyword
    rcases hKeyword with rfl | rfl <;> rfl
  rw [hWords, classifyWords]
  simp only [hBreak, String.ofList_toList]
  simp only [unsupportedKeywords, List.mem_cons,
    List.not_mem_nil, or_false] at hKeyword
  rcases hKeyword with rfl | rfl <;> rfl

/- The header of a function is no header of a knot. -/
theorem classifyLine_function
    (hFunction : NamesFunction cs)
    (line : Nat) :
    (classifyLine line cs).Blames line (YieldsTunnel line) := by
  rcases hFunction with
    ⟨⟨after, rfl⟩, b, rest, hBlank, hHeader⟩
  change (classifyKnot line _).Blames line _
  have hNoName :
      isName (headerName (['=', '='] ++ after)) = false := by
    rw [hHeader, Bool.eq_false_iff]
    intro hName
    rw [isName, Bool.and_eq_true] at hName
    have hWord : isWordChar b = true :=
      List.all_eq_true.mp hName.2 b (by simp)
    rw [isBlank_of_isWordChar hWord] at hBlank
    cases hBlank
  unfold classifyKnot
  dsimp only
  split
  · exact Blames.error_pure rfl _
  · rw [hNoName, if_neg Bool.false_ne_true]
    exact Blames.error_pure rfl _

/- The name in a header holds every sign that is in it. -/
theorem mem_headerName
    {c : Char}
    (hMem : c ∈ cs)
    (hSign : c ≠ '=')
    (hSolid : isBlank c = false) :
    c ∈ headerName cs := by
  have hDrop {remove : Char → Bool}
      (hKeep : remove c = false)
      {cs : List Char}
      (hMem : c ∈ cs) :
      c ∈ cs.dropWhile remove := by
    rw [← List.takeWhile_append_dropWhile
      (p := remove) (l := cs)] at hMem
    rcases List.mem_append.mp hMem with hTaken | hLeft
    · rw [List.mem_takeWhile_imp hTaken] at hKeep
      cases hKeep
    · exact hLeft
  have hNoSign : (c == '=') = false := by
    simpa using hSign
  unfold headerName trim trimEnd trimStart
  simp only [List.mem_reverse]
  exact hDrop hSolid (by simpa using hDrop hSolid (by
    simpa using hDrop hNoSign (by
      simpa using hDrop hNoSign hMem)))

/- No header has a name with a dash in it. -/
theorem not_isName_of_dash
    (hDash : '-' ∈ cs) :
    isName (headerName cs) = false := by
  rw [Bool.eq_false_iff]
  intro hName
  rw [isName, Bool.and_eq_true] at hName
  have hWord : isWordChar '-' = true :=
    List.all_eq_true.mp hName.2 '-'
      (mem_headerName hDash (by decide) (by decide))
  exact absurd hWord (by decide)

/- A line of words with two diverts is text, or refused. -/
theorem classifyWords_tunnel
    (hSets : ¬ SetsVariable cs)
    (hTwo : 2 < (arrowParts cs).length)
    (line : Nat) :
    (classifyWords line cs).Blames line
      (YieldsTunnel line) := by
  -- A keyword alone has no arrow, and one with a space sets.
  have hOther (keyword : String)
      (hNoDash : '-' ∉ keyword.toList)
      (hSpace :
        ¬ (keyword ++ " ").toList <+: cs) :
      String.ofList (breakAt ' ' cs).1 ≠ keyword := by
    rintro rfl
    rcases breakAt_cases ' ' cs with
      hNone | ⟨before, after, hSame, hBreak⟩
    · rw [hNone, String.toList_ofList] at hNoDash
      exact hNoDash (dash_mem_of_arrowParts hTwo)
    · apply hSpace
      rw [hBreak, hSame, String.toList_append,
        String.toList_ofList]
      exact ⟨after, by simp⟩
  have hVar :=
    hOther "VAR" (by decide) fun hHead =>
      hSets (Or.inr (Or.inl hHead))
  have hConst :=
    hOther "CONST" (by decide) fun hHead =>
      hSets (Or.inr (Or.inr hHead))
  unfold classifyWords
  dsimp only
  rw [if_neg hVar, if_neg hConst]
  split
  · exact Blames.error_pure rfl _
  · refine Blames.pure ⟨_, rfl, rfl, rfl, ?_⟩
    rw [String.toList_ofList]
    exact hTwo

/- A line with two diverts is one of its kind, or refused. -/
theorem classifyLine_tunnel
    (hTunnel : IsTunnel cs)
    (line : Nat) :
    (classifyLine line cs).Blames line (YieldsTunnel line) := by
  rcases hTunnel with ⟨hSets, hTwo⟩
  have hChoice
      (hBody :
        lineBody cs =
          trim (cs.dropWhile fun c =>
            isChoiceMark c || isBlank c)) :
      (some <$> classifyChoice line cs).Blames line
        (YieldsTunnel line) := by
    intro d l? d' hRun
    rcases run_map_ok.mp hRun with ⟨l, hRead, rfl⟩
    unfold classifyChoice at hRead
    rcases
        Idles.run_guarded (Idles.report _ _) hRead with
      ⟨d₁, hAdds, _, hRest⟩
    rcases run_pure_ok.mp hRest with ⟨rfl, rfl⟩
    refine ⟨hAdds, Or.inr ⟨_, rfl, rfl, rfl, ?_⟩⟩
    rw [String.toList_ofList, ← hBody]
    exact hTwo
  unfold classifyLine
  split
  · have hDash := not_isName_of_dash
      (dash_mem_of_arrowParts hTwo)
    change isName (headerName ('=' :: '=' :: _)) = _ at hDash
    unfold classifyKnot
    dsimp only
    rw [hDash, if_neg Bool.false_ne_true]
    split
    · exact Blames.error_pure rfl _
    · exact Blames.error_pure rfl _
  · have hDash := not_isName_of_dash
      (dash_mem_of_arrowParts hTwo)
    change isName (headerName ('=' :: _)) = _ at hDash
    unfold classifyStitch
    dsimp only
    rw [hDash, if_neg Bool.false_ne_true]
    exact Blames.error_pure rfl _
  · exact hChoice rfl
  · exact hChoice rfl
  · refine Blames.pure ⟨_, rfl, rfl, rfl, ?_⟩
    rw [String.toList_ofList]
    exact hTwo
  · next rest hNoArrow =>
      have hBody :
          lineBody ('-' :: rest) =
            trim (takeDashes ('-' :: rest)).2 := by
        rw [lineBody]
        exact hNoArrow
      rw [hBody] at hTwo
      generalize takeDashes ('-' :: rest) = parts at hTwo
      rcases parts with ⟨depth, body⟩
      refine Blames.pure ⟨_, rfl, rfl, rfl, ?_⟩
      rw [String.toList_ofList]
      exact hTwo
  · exact Blames.error_pure rfl _
  · next rest =>
      have hNone : (arrowParts ('#' :: rest)).length = 1 := by
        have hMarks :
            topLevel ('#' :: rest) =
              ('#', true) :: topLevel rest :=
          topLevelFrom_plain (by decide) (by decide)
            (by decide) (by decide) 0
        rw [arrowParts, splitTags, hMarks, Marked.split]
        rfl
      change 2 < (arrowParts ('#' :: rest)).length at hTwo
      omega
  · exact absurd (Or.inl ⟨_, rfl⟩) hSets
  · have hBody : lineBody cs = cs := by
      rw [lineBody]
      all_goals assumption
    rw [hBody] at hTwo
    exact classifyWords_tunnel hSets hTwo line

/- What is caught is not supported. -/
theorem IsCaught.isUnsupported
    (hCaught : IsCaught cs) :
    IsUnsupported cs := by
  rcases hCaught with
    ⟨hStatement, _⟩ | hFunction | hThread | hTunnel
  · exact Or.inl hStatement
  · exact Or.inr (Or.inl hFunction)
  · rcases hThread with ⟨rest, rfl⟩
    exact Or.inr (Or.inr (Or.inl ⟨rest, rfl⟩))
  · exact Or.inr (Or.inr (Or.inr hTunnel))

/- A line without content uses nothing. -/
theorem not_isUnsupported_nil :
    ¬ IsUnsupported [] := by
  rintro (hStatement | ⟨hHeader, _⟩ | hThread | ⟨_, hTwo⟩)
  · rw [NamesStatement] at hStatement
    exact absurd hStatement (by decide)
  · exact absurd hHeader (by decide)
  · rw [IsThread] at hThread
    exact absurd hThread (by decide)
  · exact absurd hTwo (by decide)

/-
  A line that is caught is blamed, when it is told what kind of
  line it is, or as a logical line with two diverts.
-/
theorem classifyLine_blames
    (hCaught : IsCaught cs)
    (line : Nat) :
    (classifyLine line cs).Blames line (YieldsTunnel line) := by
  rcases hCaught with
    ⟨hKeyword, hRest⟩ | hFunction | ⟨rest, rfl⟩ | hTunnel
  · have hStatement
        {rest : List Char}
        (hAfter : rest = [] ∨ ∃ after, rest = ' ' :: after)
        (hSame : cs = firstWord cs ++ rest) :
        (classifyLine line cs).Blames line
          (YieldsTunnel line) := by
      have hRead := classifyLine_statement hKeyword hAfter line
      rw [String.toList_ofList, ← hSame] at hRead
      rw [hRead]
      exact Blames.error_pure rfl _
    rcases hRest with hAlone | ⟨rest, hSpaced⟩
    · exact hStatement (Or.inl rfl) (by simpa using hAlone)
    · exact hStatement (Or.inr ⟨rest, rfl⟩) hSpaced
  · exact classifyLine_function hFunction line
  · exact Blames.error_pure rfl _
  · exact classifyLine_tunnel hTunnel line

/- So is a line of a script with such a content. -/
theorem readScriptLine_blames
    (hCaught : IsCaught (lineContent cs))
    (line : Nat) :
    (readScriptLine line cs).Blames line
      (YieldsTunnel line) := by
  refine Blames.after_idles (dropComment_idles line cs)
    fun content hSame => ?_
  rw [hSame]
  rw [lineContent] at hCaught
  split
  · next hNone =>
      rw [hNone] at hCaught
      exact absurd hCaught.isUnsupported not_isUnsupported_nil
  · next c rest hSome =>
      rw [hSome] at hCaught
      exact classifyLine_blames hCaught line

end BranchingStory

------------------------------------------------------------
-- Lines That Pass
------------------------------------------------------------

namespace BranchingStory

open Reading
open scoped List

variable {cs : List Char}

/-
  Whether a line is read as text of the story: its body makes a
  logical line, and no error is reported but of marks of choices
  that do not go together.
-/
def IsReadAsText
    (r : Reading (Option ScriptLine))
    (line : Nat)
    (body : List Char) : Prop :=
  ∃ kind, LineKind.holdsText kind = true ∧
    ∀ d, ∃ d', r.run d =
        .ok (some ⟨kind, line, String.ofList body⟩, d') ∧
      ∀ i ∈ d'.issues, i.isError = true →
        i ∈ d.issues ∨ i.cause = .mixedMarkers

/- Whether a content passes as text of the story. -/
def PassesAsText
    (line : Nat)
    (cs : List Char) : Prop :=
  IsReadAsText (classifyLine line cs) line (lineBody cs)

/- A choice passes with whatever comes after its marks. -/
theorem passesAsText_choice
    {mark : Char}
    (hMark : mark = '*' ∨ mark = '+')
    (rest : List Char)
    (line : Nat) :
    PassesAsText line (mark :: rest) := by
  have hBody :
      lineBody (mark :: rest) =
        trim ((mark :: rest).dropWhile fun c =>
          isChoiceMark c || isBlank c) := by
    rcases hMark with rfl | rfl <;> rfl
  have hRead :
      classifyLine line (mark :: rest) =
        some <$> classifyChoice line (mark :: rest) := by
    rcases hMark with rfl | rfl <;> rfl
  refine ⟨.choice (choiceMarks (mark :: rest)).length
    ((choiceMarks (mark :: rest)).all (· == '+')), rfl,
    fun d => ?_⟩
  rw [hRead, hBody]
  unfold classifyChoice
  dsimp only
  split
  · refine ⟨_, rfl, fun i hMem _ => ?_⟩
    rcases List.mem_append.mp hMem with hOld | hNew
    · exact Or.inl hOld
    · rw [List.mem_singleton] at hNew
      exact Or.inr (hNew ▸ rfl)
  · exact ⟨_, rfl, fun i hMem _ => Or.inl hMem⟩

/- A gather passes with whatever comes after its dashes. -/
theorem passesAsText_gather
    {rest : List Char}
    (hNoArrow : ∀ tail, rest = '>' :: tail → False)
    (line : Nat) :
    PassesAsText line ('-' :: rest) := by
  refine ⟨.gather (takeDashes ('-' :: rest)).1, rfl,
    fun d => ⟨d, ?_, fun i hMem _ => Or.inl hMem⟩⟩
  rw [classifyLine, lineBody]
  · rfl
  · exact hNoArrow
  · exact hNoArrow

/- A text without a mark stands before the first mark. -/
theorem breakAt_fst_append
    {mark : Char}
    {before : List Char}
    (hMark : mark ∉ before)
    (rest : List Char) :
    (breakAt mark (before ++ rest)).1 =
      before ++ (breakAt mark rest).1 := by
  induction before with
  | nil => rfl
  | cons c before ih =>
      rw [List.mem_cons, not_or] at hMark
      rw [List.cons_append, breakAt,
        if_neg fun hSame => hMark.1 hSame.symm,
        List.cons_append, ← ih hMark.2]

/- A statement passes whose keyword ends at another blank. -/
theorem passesAsText_statement
    {keyword : String}
    (hKeyword : keyword ∈ unsupportedKeywords)
    {b : Char}
    (hBlank : isBlank b = true)
    (hOther : b ≠ ' ')
    (rest : List Char)
    (line : Nat) :
    PassesAsText line (keyword.toList ++ b :: rest) := by
  have hWords :
      classifyLine line (keyword.toList ++ b :: rest) =
        classifyWords line (keyword.toList ++ b :: rest) := by
    simp only [unsupportedKeywords, List.mem_cons,
      List.not_mem_nil, or_false] at hKeyword
    rcases hKeyword with rfl | rfl <;> rfl
  have hBody :
      lineBody (keyword.toList ++ b :: rest) =
        keyword.toList ++ b :: rest := by
    simp only [unsupportedKeywords, List.mem_cons,
      List.not_mem_nil, or_false] at hKeyword
    rcases hKeyword with rfl | rfl <;> rfl
  -- What comes before the first space has a blank in it.
  have hMem :
      b ∈ (breakAt ' ' (keyword.toList ++ b :: rest)).1 := by
    have hSpace : ' ' ∉ keyword.toList ++ [b] := by
      rw [List.mem_append, List.mem_singleton, not_or]
      refine ⟨?_, fun hSame => hOther hSame.symm⟩
      simp only [unsupportedKeywords, List.mem_cons,
        List.not_mem_nil, or_false] at hKeyword
      rcases hKeyword with rfl | rfl <;> decide
    rw [← List.singleton_append, ← List.append_assoc,
      breakAt_fst_append hSpace]
    simp
  have hNone (word : String)
      (hSolid : word.toList.all (fun c => !isBlank c) = true) :
      String.ofList
        (breakAt ' ' (keyword.toList ++ b :: rest)).1 ≠
          word := by
    rintro rfl
    rw [String.toList_ofList] at hSolid
    have hNot := List.all_eq_true.mp hSolid b hMem
    rw [hBlank] at hNot
    cases hNot
  refine ⟨.text, rfl,
    fun d => ⟨d, ?_, fun i hMem _ => Or.inl hMem⟩⟩
  rw [hWords, hBody, classifyWords]
  simp only [hNone "VAR" (by decide),
    hNone "CONST" (by decide), hNone "INCLUDE" (by decide),
    hNone "EXTERNAL" (by decide), or_self, if_false]
  rfl

/- What is not supported and not caught passes as text. -/
theorem passesAsText_of_not_isCaught
    (hUnsupported : IsUnsupported cs)
    (hNotCaught : ¬ IsCaught cs)
    (line : Nat) :
    PassesAsText line cs := by
  rcases hUnsupported with
    hStatement | hFunction | hThread | hTunnel
  · have hParts :=
      List.takeWhile_append_dropWhile
        (p := fun c => !isBlank c) (l := cs)
    change firstWord cs ++ _ = cs at hParts
    cases hRest : cs.dropWhile fun c => !isBlank c with
    | nil =>
        rw [hRest, List.append_nil] at hParts
        exact absurd
          (Or.inl ⟨hStatement, Or.inl hParts.symm⟩) hNotCaught
    | cons b rest =>
        rw [hRest] at hParts
        have hBlank : isBlank b = true := by
          have hHead :=
            List.head?_dropWhile_not (fun c => !isBlank c) cs
          rw [hRest] at hHead
          simpa using hHead
        have hOther : b ≠ ' ' := by
          rintro rfl
          exact hNotCaught
            (Or.inl ⟨hStatement, Or.inr ⟨rest, hParts.symm⟩⟩)
        have hPasses :=
          passesAsText_statement hStatement hBlank hOther rest
            line
        rwa [String.toList_ofList, hParts] at hPasses
  · exact absurd (Or.inr (Or.inl hFunction)) hNotCaught
  · unfold IsThread lineBody at hThread
    split at hThread
    · exact passesAsText_choice (Or.inl rfl) _ line
    · exact passesAsText_choice (Or.inr rfl) _ line
    · exact absurd hThread (by simp)
    · next rest hNoArrow =>
        exact passesAsText_gather hNoArrow line
    · exact absurd (Or.inr (Or.inr (Or.inl hThread)))
        hNotCaught
  · exact absurd (Or.inr (Or.inr (Or.inr hTunnel))) hNotCaught

/- So does a line of a script with such a content. -/
theorem isReadAsText_of_passesAsText
    {line : Nat}
    (hSome : lineContent cs ≠ [])
    (hPasses : PassesAsText line (lineContent cs)) :
    IsReadAsText (readScriptLine line cs) line
      (lineBody (lineContent cs)) := by
  rcases hPasses with ⟨kind, hKind, hRead⟩
  refine ⟨kind, hKind, fun d => ?_⟩
  rcases
      hRead ⟨d.issues ++
        reminders line (cutComment 0 false cs).2,
          d.numbered⟩ with
    ⟨d', hRun, hIssues⟩
  refine ⟨d', ?_, ?_⟩
  · refine run_bind_ok.mpr
      ⟨_, _, run_dropComment line cs d, ?_⟩
    rcases List.exists_cons_of_ne_nil hSome with
      ⟨c, rest, hCons⟩
    rw [lineContent] at hCons
    rw [lineContent, hCons] at hRun ⊢
    exact hRun
  · intro i hMem hError
    rcases hIssues i hMem hError with hBefore | hMarks
    · rcases List.mem_append.mp hBefore with hOld | hNote
      · exact Or.inl hOld
      · rcases List.mem_map.mp hNote with ⟨note, _, rfl⟩
        cases hError
    · exact Or.inr hMarks

end BranchingStory

------------------------------------------------------------
-- Scripts
------------------------------------------------------------

namespace BranchingStory

open Play
open Reading

/-
  What becomes of a line that uses what is not supported,
  wherever it stands in a script.  If it is caught, the script
  is refused with an error about this very line, unless the
  script has more digits than a number may have, which may end
  its reading before.  If it is not caught, which takes a
  keyword in front of another blank than a space, or a thread
  after marks, it is read as text of the story.
-/
theorem unsupported_lines_are_refused
    {source : String}
    {n : Nat}
    {cs : List Char}
    (hLine : (splitLines source.toList)[n]? = some cs)
    (hUnsupported : IsUnsupported (lineContent cs)) :
    (IsCaught (lineContent cs) →
      IsRefusedFor source (1 + n)) ∧
    (¬ IsCaught (lineContent cs) →
      IsReadAsText (readScriptLine (1 + n) cs) (1 + n)
        (lineBody (lineContent cs))) := by
  constructor
  · intro hCaught
    apply Story.read_blames
    apply readOutline_blames hLine
    refine (readScriptLine_blames hCaught (1 + n)).mono ?_
    rintro l? ⟨l, hSome, hPlace, hTunnel⟩
    refine ⟨l, hSome, fun b => ?_⟩
    rw [← hPlace]
    exact add_blames_of_isTunnel hTunnel b
  · intro hNotCaught
    apply isReadAsText_of_passesAsText
    · intro hNone
      rw [hNone] at hUnsupported
      exact not_isUnsupported_nil hUnsupported
    · exact passesAsText_of_not_isCaught hUnsupported
        hNotCaught (1 + n)

/-
  A script with a tunnel after the mark of a choice, which is
  refused for it.
-/
theorem unsupported_lines_are_refused_tunnel :
    IsUnsupported (lineContent "* Go -> a -> b // on".toList) ∧
      IsRefusedFor "Hi\n* Go -> a -> b // on\n" 2 := by
  have hTunnel :
      IsTunnel (lineContent "* Go -> a -> b // on".toList) := by
    refine ⟨?_, by decide⟩
    rintro (hSign | hVar | hConst)
    · exact absurd hSign (by decide)
    · exact absurd hVar (by decide)
    · exact absurd hConst (by decide)
  have hUnsupported :
      IsUnsupported
        (lineContent "* Go -> a -> b // on".toList) :=
    Or.inr (Or.inr (Or.inr hTunnel))
  exact ⟨hUnsupported,
    (unsupported_lines_are_refused (n := 1) (by decide)
      hUnsupported).1 (Or.inr (Or.inr (Or.inr hTunnel)))⟩

/-
  A thread after a dash is no error: the script is accepted,
  and tells it as text.
-/
theorem threads_after_marks_are_told :
    (splitLines "Hi\n- <- tail\n".toList)[1]? =
        some "- <- tail".toList ∧
      IsUnsupported (lineContent "- <- tail".toList) ∧
      ∃ story lines prompt s,
        Story.read "Hi\n- <- tail\n" = .ok story ∧
          (resume story.outline 9).runFrom
              (.start story.outline 0) =
            (.ok (lines, prompt), s) ∧
          lines.map OutputLine.text = ["Hi\n", "<- tail\n"] := by
  have hThread : IsThread (lineContent "- <- tail".toList) := by
    rw [IsThread]
    decide
  have hCheck :
      (match Story.read "Hi\n- <- tail\n" with
        | .error _ => false
        | .ok story =>
            match ((resume story.outline 9).runFrom
                (.start story.outline 0)).1 with
            | .error _ => false
            | .ok (lines, _) =>
                lines.map OutputLine.text =
                  ["Hi\n", "<- tail\n"]) = true := by
    decide +kernel
  refine ⟨by decide, Or.inr (Or.inr (Or.inl hThread)), ?_⟩
  cases hRead : Story.read "Hi\n- <- tail\n" with
  | error e =>
      rw [hRead] at hCheck
      cases hCheck
  | ok story =>
      rw [hRead] at hCheck
      dsimp only at hCheck
      generalize hRun : (resume story.outline 9).runFrom _ = p
        at hCheck
      rcases p with ⟨e | ⟨lines, prompt⟩, s⟩
      · cases hCheck
      · exact ⟨story, lines, prompt, s, rfl, hRun,
          of_decide_eq_true hCheck⟩

end BranchingStory
