import BranchingStory.Proofs.ContentPrinting
import BranchingStory.Proofs.Renumbering

/-
  This file shows that content is read back from its print,
  with new numbers for its alternatives and without an issue.

  Key definitions include:
    * `Draft.after`
    * `Yields`
    * `YieldsOne`
    * `Fragment.pieces`

  Key theorems include:
    * `readItem_yields`
    * `readPieces_yields`
    * `readBraced_yields`
    * `readFragmentsWithin_yields`
    * `readFragments_printAll`
-/

------------------------------------------------------------
-- Steps Without Issues
------------------------------------------------------------

namespace BranchingStory

open Reading

/- A draft after so many more numbers have been handed out. -/
def Draft.after
    (d : Draft)
    (count : Nat) : Draft :=
  { d with numbered := d.numbered + count }

@[simp] theorem Draft.after_after
    (d : Draft)
    (m n : Nat) :
    (d.after m).after n = d.after (m + n) := by
  rw [after, after, after, Nat.add_assoc]

/-
  Whether a step of reading yields fragments with the next
  numbers for their alternatives, and no issue.
-/
def Yields
    (r : Reading (List Fragment))
    (fs : List Fragment) : Prop :=
  ∀ d, r.run d =
    .ok (renumberAll d.numbered fs,
      d.after (numbersAll fs).length)

/- The same for a step that yields one fragment. -/
def YieldsOne
    (r : Reading (Option Fragment))
    (f : Fragment) : Prop :=
  ∀ d, r.run d =
    .ok (some (f.renumber d.numbered),
      d.after f.numbers.length)

end BranchingStory

------------------------------------------------------------
-- Diverts
------------------------------------------------------------

namespace BranchingStory

open Reading

variable {line : Nat}
variable {cs target : List Char}

/- Plain characters outside braces are open. -/
theorem topLevel_of_plain
    (hPlain : ∀ c ∈ cs, isSpecial c = false) :
    topLevelFrom 0 false cs = cs.map fun c => (c, true) := by
  induction cs with
  | nil => rfl
  | cons c cs ih =>
      rw [List.forall_mem_cons] at hPlain
      have hNone : ∀ c' ∈ ['\\', '"', '{', '}', '(', ')'],
          c ≠ c' := by
        rintro c' hMem rfl
        exact absurd hMem (of_decide_eq_false hPlain.1)
      rw [topLevelFrom_plain (hNone _ (by simp))
        (hNone _ (by simp)) (hNone _ (by simp))
        (hNone _ (by simp)), ih hPlain.2]
      rfl

/- Content has no divert to take off. -/
theorem readDivert_of_shielded
    (hShielded : Shielded 0 cs 0) :
    readDivert line cs = return (cs, none) := by
  have hMarks := hShielded.outside 0 [] (Int.le_refl 0)
  have hNil : topLevelFrom 0 false [] = [] := rfl
  rw [List.append_nil, hNil, List.append_nil] at hMarks
  rw [readDivert, topLevel, hMarks,
    Marked.splitArrows_of_notMem (not_mem_shield '-' cs),
    chars_shield]

/- A divert after content is taken off it. -/
theorem readDivert_arrowTo
    (hShielded : Shielded 0 cs 0)
    (hAddress : isAddressText target = true) :
    readDivert line (cs ++ arrowTo target) =
      return (cs, some target) := by
  have hDotted := isDotted_of_isAddressText hAddress
  have hPlain := isPlain_of_isDotted (by decide) hDotted
  have hChars {c : Char} (hMem : c ∈ target) :
      isBlank c = false ∧ c ≠ '-' := by
    rcases hDotted.accept_or_point c hMem with hWord | rfl
    · refine ⟨isBlank_of_isWordChar hWord, ?_⟩
      rintro rfl
      exact absurd hWord (by decide)
    · decide
  have hMarks := hShielded.outside 0 (arrowTo target)
    (Int.le_refl 0)
  have hArrow :
      topLevelFrom 0 false (arrowTo target) =
        ('-', true) :: ('>', true) ::
          target.map fun c => (c, true) := by
    rw [topLevel_of_plain]
    · rfl
    · rw [arrowTo, List.forall_mem_cons, List.forall_mem_cons]
      exact ⟨by decide, by decide,
        fun c hMem => (hPlain c hMem).1⟩
  have hTarget :
      Marked.splitArrows (target.map fun c => (c, true)) =
        [target] := by
    have hNone :
        ('-', true) ∉ target.map fun c => (c, true) := by
      rw [List.mem_map]
      rintro ⟨c, hMem, hSame⟩
      exact (hChars hMem).2 (Prod.mk.inj hSame).1
    rw [Marked.splitArrows_of_notMem hNone]
    simp [Marked.chars, Function.comp_def]
  have hSplit :=
    Marked.splitArrows_append (not_mem_shield '-' cs)
      (show Marked.splitArrows (('-', true) :: ('>', true) ::
        target.map fun c => (c, true)) = [] :: [target] by
          rw [Marked.splitArrows, hTarget])
  rw [chars_shield, List.append_nil] at hSplit
  rw [readDivert, topLevel, hMarks, hArrow, hSplit]
  have hTrim : trim target = target :=
    trimmed_of_none fun c hMem => (hChars hMem).1
  simp only [hTrim, hAddress, Bool.not_true, Bool.and_false,
    Bool.false_eq_true, if_false]

/- A branch or an item is read back if its content is. -/
theorem readItem_yields
    {content : ContentReader}
    {fs : List Fragment}
    (hBranch : IsBranch line fs)
    (hContent : ∀ body, IsContent line body →
      (printAll body).length ≤ (printAll fs).length →
        Yields (content (printAll body)) body) :
    Yields (readItem line content (printAll fs)) fs := by
  intro d
  rcases hBranch.isContent_or with
    hPlain | ⟨body, t, rfl, hBody, hTarget⟩
  · have hRead := hContent fs hPlain (Nat.le_refl _) d
    rw [readItem, readDivert_of_shielded hPlain.shielded,
      pure_bind]
    refine run_bind_ok.mpr ⟨_, _, hRead, ?_⟩
    dsimp only
    rw [if_neg (by simp), divertTo, List.append_nil]
    · rfl
    · rintro c rest ⟨⟩
  · have hPrint :
        printAll (body ++ [.divert t]) =
          printAll body ++ arrowTo t.target.toList := by
      rw [printAll_append, printAll, printAll,
        Fragment.print, List.append_nil]
    rw [Fragment.IsPrintable] at hTarget
    rcases hTarget with ⟨hAddress, rfl, hPlace⟩
    have hRead := hContent body hBody (by
      rw [hPrint, List.length_append]
      exact Nat.le_add_right _ _) d
    rcases (isDotted_of_isAddressText hAddress).head with
      ⟨c, rest, hTarget, _⟩
    have hEnd :
        divertTo t.line (some t.target.toList) =
          [.divert t] := by
      rw [hTarget, divertTo, ← hTarget, String.ofList_toList,
        ← hPlace]
    have hOther : some t.target.toList ≠ some [] := by
      rw [hTarget]
      simp
    rw [hPrint, readItem,
      readDivert_arrowTo hBody.shielded hAddress, pure_bind]
    refine run_bind_ok.mpr ⟨_, _, hRead, ?_⟩
    dsimp only
    rw [if_neg hOther, hEnd, renumberAll_append,
      numbersAll_append]
    refine run_pure_ok.mpr ⟨rfl, ?_⟩
    rw [List.length_append]
    rfl

end BranchingStory

------------------------------------------------------------
-- Pieces
------------------------------------------------------------

namespace BranchingStory

open Reading

variable {line : Nat}

/- The pieces that a fragment is written with. -/
def Fragment.pieces : Fragment → List Piece
  | .text s => s.toList.map .char
  | .divert _ => []
  | f => [.braced f.inner]

/- A fragment in braces is one piece. -/
theorem Fragment.pieces_of_isBraced
    {f : Fragment}
    (hBraced : f.isBraced = true) :
    f.pieces = [.braced f.inner] := by
  cases f with
  | text s => cases hBraced
  | divert d => cases hBraced
  | _ => rfl

/- Escaped text falls into its characters. -/
theorem piecesWithin_backslashed
    (cs rest : List Char)
    {n : Nat}
    (hLength : (backslashed cs ++ rest).length ≤ n) :
    ∃ m, rest.length ≤ m ∧
      piecesWithin n (backslashed cs ++ rest) =
        cs.map .char ++ piecesWithin m rest := by
  induction cs generalizing n with
  | nil => exact ⟨n, hLength, rfl⟩
  | cons c cs ih =>
      rw [backslashed, List.cons_append, List.cons_append]
        at hLength ⊢
      cases n with
      | zero => cases hLength
      | succ n =>
          rw [List.length_cons, List.length_cons] at hLength
          rcases ih (show _ ≤ n by omega) with
            ⟨m, hRest, hPieces⟩
          refine ⟨m, hRest, ?_⟩
          rw [piecesWithin, hPieces, List.map_cons,
            List.cons_append]

/- Content falls into the pieces of its fragments. -/
theorem piecesWithin_printAll
    {fs : List Fragment}
    (hPrintable : ∀ f ∈ fs, f.IsPrintable line)
    (hNone : ∀ f ∈ fs, f.isDivert = false)
    {n : Nat}
    (hLength : (printAll fs).length ≤ n) :
    piecesWithin n (printAll fs) =
      fs.flatMap Fragment.pieces := by
  induction fs generalizing n with
  | nil => cases n <;> rfl
  | cons f fs ih =>
      rw [List.forall_mem_cons] at hPrintable hNone
      rw [printAll] at hLength ⊢
      rw [List.flatMap_cons]
      cases hBraced : f.isBraced with
      | true =>
          have hInner :=
            (f.shielded_inner hPrintable.1).takeBraced?_eq
              (printAll fs)
          rw [Fragment.print_of_isBraced hBraced, embraced,
            List.cons_append, List.append_assoc,
            List.singleton_append] at hLength ⊢
          cases n with
          | zero => cases hLength
          | succ n =>
              rw [List.length_cons, List.length_append,
                List.length_cons] at hLength
              rw [piecesWithin, hInner]
              dsimp only
              rw [ih hPrintable.2 hNone.2 (by omega),
                Fragment.pieces_of_isBraced hBraced,
                List.singleton_append]
      | false =>
          cases f with
          | text s =>
              rw [Fragment.print] at hLength ⊢
              rcases piecesWithin_backslashed s.toList
                  (printAll fs) hLength with
                ⟨m, hRest, hPieces⟩
              rw [hPieces, ih hPrintable.2 hNone.2 hRest,
                Fragment.pieces]
          | divert d => cases hNone.1
          | _ => cases hBraced

/- Characters wait to be joined into a text. -/
theorem readPieces_chars
    (braced : List Char → Reading (Option Fragment))
    (cs waiting : List Char)
    (ps : List Piece) :
    readPieces line braced waiting (cs.map .char ++ ps) =
      readPieces line braced (cs.reverse ++ waiting) ps := by
  induction cs generalizing waiting with
  | nil => rfl
  | cons c cs ih =>
      rw [List.map_cons, List.cons_append, readPieces, ih,
        List.reverse_cons, List.append_assoc,
        List.singleton_append]

/- A text has no numbers. -/
theorem renumberAll_textFragment
    (n : Nat)
    (cs : List Char) :
    renumberAll n (textFragment cs) = textFragment cs ∧
      numbersAll (textFragment cs) = [] := by
  cases cs <;> exact ⟨rfl, rfl⟩

/- A text that is not empty is a fragment. -/
theorem textFragment_toList
    {s : String}
    (hSome : s ≠ "") :
    textFragment s.toList = [.text s] := by
  cases hChars : s.toList with
  | nil =>
      exact absurd (String.toList_eq_nil_iff.mp hChars) hSome
  | cons c cs =>
      rw [textFragment, ← hChars, String.ofList_toList]
      rintro ⟨⟩

/- No text waits in front of a text. -/
theorem waiting_of_apart
    {waiting : List Char}
    {s : String}
    {fs : List Fragment}
    (hApart : (textFragment waiting ++
      .text s :: fs).IsChain MayPrecede) :
    waiting = [] := by
  cases waiting with
  | nil => rfl
  | cons c cs =>
      rw [textFragment, List.singleton_append,
        List.isChain_cons_cons] at hApart
      · exact hApart.1.elim
      · rintro ⟨⟩

/- The text that waits comes before what the braces hold. -/
theorem readPieces_braced
    {braced : List Char → Reading (Option Fragment)}
    {inner : List Char}
    {f : Fragment}
    {fs : List Fragment}
    {ps : List Piece}
    (hFirst : YieldsOne (braced inner) f)
    (hRest : Yields (readPieces line braced [] ps) fs)
    (waiting : List Char) :
    Yields
      (readPieces line braced waiting.reverse
        (.braced inner :: ps))
      (textFragment waiting ++ f :: fs) := by
  intro d
  rcases renumberAll_textFragment d.numbered waiting with
    ⟨hSame, hNumbers⟩
  rw [readPieces]
  refine run_bind_ok.mpr ⟨_, _, hFirst d, ?_⟩
  refine run_bind_ok.mpr ⟨_, _, hRest _, ?_⟩
  refine run_pure_ok.mpr ⟨?_, ?_⟩
  · rw [renumberAll_append, hSame, hNumbers,
      List.reverse_reverse, List.append_assoc]
    rfl
  · rw [numbersAll_append, hNumbers, numbersAll,
      Draft.after_after, List.nil_append, List.length_append]

/-
  Content is read back if what its braces hold is.  By
  induction on the content: the characters of a text wait
  until the next braces or the end, as no text follows it.
-/
theorem readPieces_yields
    {braced : List Char → Reading (Option Fragment)}
    {fs : List Fragment}
    (hPrintable : ∀ f ∈ fs, f.IsPrintable line)
    (hNone : ∀ f ∈ fs, f.isDivert = false)
    (hBraces : ∀ f ∈ fs, f.isBraced = true →
      YieldsOne (braced f.inner) f)
    (waiting : List Char)
    (hApart :
      (textFragment waiting ++ fs).IsChain MayPrecede) :
    Yields
      (readPieces line braced waiting.reverse
        (fs.flatMap Fragment.pieces))
      (textFragment waiting ++ fs) := by
  induction fs generalizing waiting with
  | nil =>
      intro d
      rcases renumberAll_textFragment d.numbered waiting with
        ⟨hSame, hNumbers⟩
      rw [List.append_nil, hSame, hNumbers]
      change (readPieces line braced waiting.reverse []).run d =
        _
      rw [readPieces, List.reverse_reverse]
      rfl
  | cons f fs ih =>
      rw [List.forall_mem_cons] at hPrintable hNone hBraces
      have hRest := ih hPrintable.2 hNone.2 hBraces.2
      rw [List.flatMap_cons]
      cases hBraced : f.isBraced with
      | true =>
          rw [Fragment.pieces_of_isBraced hBraced,
            List.singleton_append]
          exact readPieces_braced (hBraces.1 hBraced)
            (hRest []
              (List.IsChain.right_of_append hApart).tail)
            waiting
      | false =>
          cases f with
          | text s =>
              rw [Fragment.IsPrintable] at hPrintable
              have hText := textFragment_toList hPrintable.1
              have hIdle := waiting_of_apart hApart
              subst hIdle
              have hChars := hRest s.toList
                (by rw [hText]; exact hApart)
              rw [Fragment.pieces, readPieces_chars,
                List.reverse_nil, List.append_nil]
              rw [hText] at hChars
              exact hChars
          | divert d => cases hNone.1
          | _ => cases hBraced

end BranchingStory

------------------------------------------------------------
-- Braces
------------------------------------------------------------

namespace BranchingStory

open Reading

variable {line : Nat}
variable {content : ContentReader}

/- A text with a character that is no blank is not blank. -/
theorem isBlankText_eq_false
    {c : Char}
    {cs : List Char}
    (hMem : c ∈ cs)
    (hSolid : isBlank c = false) :
    isBlankText cs = false := by
  rw [← Bool.not_eq_true, isBlankText, List.all_eq_true]
  intro hBlank
  rw [hBlank c hMem] at hSolid
  cases hSolid

/- An insertion is read back. -/
theorem readBraced_insertion
    {e : Expr}
    (hReadable : e.IsReadable line) :
    YieldsOne (readBraced line content e.print)
      (.insertion e) := by
  intro d
  rcases phrase_of_print hReadable with
    ⟨p, hTokens, _, _, hBare⟩
  rcases marks_of_phrase hTokens p rfl with
    ⟨hSome, hColon, hBar⟩
  rw [hBare] at hBar
  rw [readBraced_of_ofText hSome hColon hBar
    (ofText_print hReadable)]
  rfl

/- The condition of conditional text ends at the first colon. -/
theorem cut_condition
    {c : Expr}
    (hReadable : c.IsReadable line)
    (rest : List Char) :
    ∃ ms, (braceLevel (c.print ++ ':' :: rest)).cut? ':' =
      some (ms, braceLevel rest) ∧ ms.chars = c.print := by
  rcases phrase_of_print hReadable with ⟨p, hTokens, _⟩
  rcases (spelled_of_tokens hTokens).isMarked 0
      (':' :: rest) with
    ⟨ms, hMarks, hChars, hColon, _⟩
  rw [p.totalShift_tokens] at hMarks
  refine ⟨ms, ?_, hChars⟩
  rw [braceLevel, hMarks]
  change (ms ++ braceLevel (':' :: rest)).cut? ':' = _
  rw [braceLevel_cons (by decide), Marked.cut?_append hColon]

/- A condition is read without an issue. -/
theorem readExpr?_print
    {c : Expr}
    (hReadable : c.IsReadable line)
    (d : Draft) :
    (readExpr? line c.print).run d = .ok (some c, d) := by
  rw [readExpr?, ofText_print hReadable]
  rfl

section Branches

variable {c : Expr}
variable {t f : List Fragment}

/- One branch is what is shown if the condition holds. -/
theorem readConditional_then
    (hReadable : c.IsReadable line)
    (hT : IsBranch line t)
    (hReadT : Yields (readItem line content (printAll t)) t) :
    YieldsOne
      (readConditional line content c.print
        (braceLevel (printAll t)))
      (.conditional c t []) := by
  intro d
  rcases braceLevel_of_isMarked
      (isMarked_printAll hT.printable) with
    ⟨hText, _, hBar⟩
  rw [readConditional]
  refine run_bind_ok.mpr
    ⟨_, _, readExpr?_print hReadable d, ?_⟩
  rw [Marked.countOpen_eq_zero_iff.mpr hBar,
    Marked.cut?_eq_none hBar]
  dsimp only
  rw [if_neg (by decide), hText]
  refine run_bind_ok.mpr ⟨_, _, hReadT d, ?_⟩
  refine run_pure_ok.mpr ⟨rfl, ?_⟩
  rw [Fragment.numbers, numbersAll, List.append_nil]

/- After a bar comes what is shown if it does not hold. -/
theorem readConditional_else
    (hReadable : c.IsReadable line)
    (hT : IsBranch line t)
    (hF : IsBranch line f)
    (hReadT : Yields (readItem line content (printAll t)) t)
    (hReadF : Yields (readItem line content (printAll f)) f) :
    YieldsOne
      (readConditional line content c.print
        (braceLevel (printAll t ++ '|' :: printAll f)))
      (.conditional c t f) := by
  intro d
  rcases braceLevel_append (isMarked_printAll hT.printable)
      ('|' :: printAll f) with
    ⟨ms, hMarks, hText, _, hBar⟩
  rcases braceLevel_of_isMarked
      (isMarked_printAll hF.printable) with
    ⟨hText', _, hBar'⟩
  rw [braceLevel_cons (by decide)] at hMarks
  have hCount :
      (ms ++ ('|', true) ::
        braceLevel (printAll f)).countOpen '|' = 1 := by
    rw [Marked.countOpen_append,
      Marked.countOpen_eq_zero_iff.mpr hBar,
      Marked.countOpen, List.countP_cons_of_pos (by simp),
      ← Marked.countOpen,
      Marked.countOpen_eq_zero_iff.mpr hBar']
  rw [readConditional]
  refine run_bind_ok.mpr
    ⟨_, _, readExpr?_print hReadable d, ?_⟩
  rw [hMarks, hCount, Marked.cut?_append hBar]
  dsimp only
  rw [if_neg (by decide), hText, hText']
  refine run_bind_ok.mpr ⟨_, _, hReadT d, ?_⟩
  refine run_bind_ok.mpr ⟨_, _, hReadF _, ?_⟩
  refine run_pure_ok.mpr ⟨rfl, ?_⟩
  rw [Fragment.numbers, Draft.after_after, List.length_append]

/- Conditional text is read back if its branches are. -/
theorem readBraced_conditional
    (hReadable : c.IsReadable line)
    (hT : IsBranch line t)
    (hF : IsBranch line f)
    (hReadT : Yields (readItem line content (printAll t)) t)
    (hReadF : Yields (readItem line content (printAll f)) f) :
    YieldsOne
      (readBraced line content
        (Fragment.conditional c t f).inner)
      (.conditional c t f) := by
  -- What comes before the colon is read as the condition.
  have hCut (rest : List Char) :
      readBraced line content (c.print ++ ':' :: rest) =
        readConditional line content c.print
          (braceLevel rest) := by
    rcases cut_condition hReadable rest with
      ⟨ms, hCut, hChars⟩
    have hSolid :
        isBlankText (c.print ++ ':' :: rest) = false :=
      isBlankText_eq_false (c := ':') (by simp) (by decide)
    rw [readBraced, hSolid, hCut]
    simp only [Bool.false_eq_true, if_false, hChars]
  rw [Fragment.inner, hCut]
  cases f with
  | nil =>
      rw [List.isEmpty_nil, if_pos rfl, List.append_nil]
      exact readConditional_then hReadable hT hReadT
  | cons g gs =>
      rw [List.isEmpty_cons, if_neg (by decide)]
      exact readConditional_else hReadable hT hF hReadT hReadF

end Branches

/- The items of an alternative are read back one by one. -/
theorem mapM_yields
    {item : ContentReader}
    {items : List (List Fragment)}
    (hItems : ∀ fs ∈ items, Yields (item (printAll fs)) fs)
    (d : Draft) :
    ((items.map printAll).mapM item).run d =
      .ok (renumberItems d.numbered items,
        d.after (numbersOfItems items).length) := by
  induction items generalizing d with
  | nil => rfl
  | cons fs items ih =>
      rw [List.forall_mem_cons] at hItems
      rw [List.map_cons, List.mapM_cons]
      refine run_bind_ok.mpr ⟨_, _, hItems.1 d, ?_⟩
      refine run_bind_ok.mpr ⟨_, _, ih hItems.2 _, ?_⟩
      refine run_pure_ok.mpr ⟨rfl, ?_⟩
      rw [numbersOfItems, Draft.after_after,
        List.length_append]

/- How a fragment begins. -/
theorem Fragment.print_head
    {f : Fragment}
    (hPrintable : f.IsPrintable line) :
    ∃ c rest, f.print = c :: rest ∧ isBlank c = false ∧
      modeOfMark? c = none := by
  cases hBraced : f.isBraced with
  | true =>
      rw [print_of_isBraced hBraced]
      exact ⟨'{', _, rfl, by decide⟩
  | false =>
      cases f with
      | text s =>
          rw [IsPrintable] at hPrintable
          cases hChars : s.toList with
          | nil =>
              exact absurd (String.toList_eq_nil_iff.mp hChars)
                hPrintable
          | cons c cs =>
              rw [print, hChars]
              exact ⟨'\\', _, rfl, by decide⟩
      | divert d => exact ⟨'-', _, rfl, by decide⟩
      | _ => cases hBraced

/- Items without a mark begin with no mark of a mode. -/
theorem printItems_head
    {fs gs : List Fragment}
    {items : List (List Fragment)}
    (hPrintable : ArePrintable line fs) :
    ∃ c rest, printItems (fs :: gs :: items) = c :: rest ∧
      isBlank c = false ∧ modeOfMark? c = none := by
  rw [printItems, List.isEmpty_cons, if_neg (by decide)]
  cases fs with
  | nil => exact ⟨'|', _, rfl, by decide⟩
  | cons f fs =>
      rw [ArePrintable] at hPrintable
      rcases Fragment.print_head hPrintable.1 with
        ⟨c, rest, hFirst, hSolid, hMode⟩
      rw [printAll, hFirst]
      exact ⟨c, _, rfl, hSolid, hMode⟩

/- The first mark belongs to the first character. -/
theorem braceLevel_head
    (c : Char)
    (cs : List Char) :
    ∃ isOpen ms, braceLevel (c :: cs) = (c, isOpen) :: ms := by
  rw [braceLevel]
  unfold braceLevelFrom
  split
  · next hNil => cases hNil
  · next hSame =>
      cases hSame
      exact ⟨_, _, rfl⟩
  · next hSame =>
      cases hSame
      exact ⟨_, _, rfl⟩
  · next hSame =>
      cases hSame
      repeat' split
      all_goals exact ⟨_, _, rfl⟩

/-
  What the braces of an alternative hold: they hold an
  alternative of this mode, and of these items.
-/
structure HoldsAlternative
    (cs : List Char)
    (m : Mode)
    (parts : List (List Char)) : Prop where
  solid : isBlankText cs = false
  noColon : (braceLevel cs).cut? ':' = none
  alternative : isAlternative (braceLevel cs) = true
  parts : alternativeParts (braceLevel cs) = (m, parts)

/- The mode is read off the mark in front of the items. -/
theorem holdsAlternative_mark
    {m : Mode}
    {mark : Char}
    {cs : List Char}
    (hMode : modeOfMark? mark = some m)
    (hPlain : isSpecial mark = false)
    (hSolid : isBlank mark = false)
    (hOther : mark ≠ ':')
    (hColon : (':', true) ∉ braceLevel cs)
    (hBar : mark = '&' ∨ mark = '~' ∨
      0 < (braceLevel cs).countOpen '|') :
    HoldsAlternative (mark :: cs) m
      ((braceLevel cs).split '|') := by
  have hMarks := braceLevel_cons hPlain cs
  refine ⟨isBlankText_eq_false List.mem_cons_self hSolid,
    ?_, ?_, ?_⟩
  · rw [hMarks]
    refine Marked.cut?_eq_none ?_
    rw [List.mem_cons, not_or]
    exact ⟨fun hSame => hOther (Prod.mk.inj hSame).1.symm,
      hColon⟩
  · rw [hMarks, isAlternative, Bool.or_eq_true]
    rcases hBar with rfl | rfl | hSome
    · exact Or.inr rfl
    · exact Or.inr rfl
    · refine Or.inl (decide_eq_true ?_)
      rw [← List.singleton_append, Marked.countOpen_append]
      exact Nat.lt_of_lt_of_le hSome (Nat.le_add_left _ _)
  · rw [hMarks, alternativeParts, List.dropWhile_cons, hSolid]
    simp only [Bool.false_eq_true, if_false, hMode]

/- Items without a mark in front are shown in sequence. -/
theorem holdsAlternative_sequence
    {cs rest : List Char}
    {c : Char}
    (hFirst : cs = c :: rest)
    (hSolid : isBlank c = false)
    (hMode : modeOfMark? c = none)
    (hColon : (':', true) ∉ braceLevel cs)
    (hBar : 0 < (braceLevel cs).countOpen '|') :
    HoldsAlternative cs .sequence
      ((braceLevel cs).split '|') := by
  refine ⟨?_, Marked.cut?_eq_none hColon, ?_, ?_⟩
  · rw [hFirst]
    exact isBlankText_eq_false List.mem_cons_self hSolid
  · rw [isAlternative, decide_eq_true hBar, Bool.true_or]
  · rcases braceLevel_head c rest with ⟨isOpen, ms, hMarks⟩
    rw [alternativeParts, hFirst, hMarks, List.dropWhile_cons,
      hSolid]
    simp only [Bool.false_eq_true, if_false, hMode]

/- The braces of an alternative hold its mode and its items. -/
theorem holdsAlternative_inner
    {m : Mode}
    {items : List (List Fragment)}
    (hLeast : m.leastItems ≤ items.length)
    (hPrintable : ItemsArePrintable line items) :
    HoldsAlternative (m.mark ++ printItems items) m
      (items.map printAll) := by
  cases items with
  | nil => cases m <;> cases hLeast
  | cons fs items =>
      rcases marks_of_printItems hPrintable with
        ⟨hSplit, hCount, hColon⟩
      rw [List.map_cons, ← hSplit]
      cases m with
      | cycle =>
          exact holdsAlternative_mark rfl (by decide)
            (by decide) (by decide) hColon (Or.inl rfl)
      | shuffle =>
          exact holdsAlternative_mark rfl (by decide)
            (by decide) (by decide) hColon
            (Or.inr (Or.inl rfl))
      | once =>
          have hBar : 0 < items.length :=
            Nat.le_of_succ_le_succ hLeast
          rw [← hCount] at hBar
          exact holdsAlternative_mark rfl (by decide)
            (by decide) (by decide) hColon
            (Or.inr (Or.inr hBar))
      | sequence =>
          cases items with
          | nil => exact absurd hLeast (Nat.lt_irrefl 1)
          | cons gs items =>
              rw [ItemsArePrintable] at hPrintable
              rcases printItems_head hPrintable.1.2 with
                ⟨c, rest, hFirst, hSolid, hMode⟩
              have hBar : 0 < (gs :: items).length :=
                Nat.succ_pos _
              rw [← hCount] at hBar
              exact holdsAlternative_sequence hFirst hSolid
                hMode hColon hBar

/- An alternative is read back if its items are. -/
theorem readBraced_alternative
    {m : Mode}
    {items : List (List Fragment)}
    {number : Nat}
    (hPrintable :
      (Fragment.alternative m items number).IsPrintable line)
    (hItems : ∀ fs ∈ items,
      Yields (readItem line content (printAll fs)) fs) :
    YieldsOne
      (readBraced line content
        (Fragment.alternative m items number).inner)
      (.alternative m items number) := by
  intro d
  rw [Fragment.IsPrintable] at hPrintable
  rcases holdsAlternative_inner hPrintable.1 hPrintable.2 with
    ⟨hSome, hColon, hBar, hParts⟩
  rw [Fragment.inner, readBraced, hSome, hColon, hBar, hParts]
  simp only [Bool.false_eq_true, if_false, if_true]
  refine run_bind_ok.mpr ⟨_, _, mapM_yields hItems d, ?_⟩
  refine run_bind_ok.mpr ⟨_, _, run_nextNumber _, ?_⟩
  refine run_pure_ok.mpr ⟨rfl, ?_⟩
  rw [Fragment.numbers, List.length_append]
  rfl

/- What the braces of a fragment hold is read back. -/
theorem readBraced_yields
    {f : Fragment}
    (hPrintable : f.IsPrintable line)
    (hBraced : f.isBraced = true)
    (hContent : ∀ body, IsContent line body →
      (printAll body).length ≤ f.inner.length →
        Yields (content (printAll body)) body) :
    YieldsOne (readBraced line content f.inner) f := by
  -- What a branch holds is shorter than what the braces hold.
  have hItem {fs : List Fragment}
      (hBranch : IsBranch line fs)
      (hShorter : (printAll fs).length ≤ f.inner.length) :
      Yields (readItem line content (printAll fs)) fs :=
    readItem_yields hBranch fun body hBody hLength =>
      hContent body hBody (le_trans hLength hShorter)
  cases f with
  | text s => cases hBraced
  | divert d => cases hBraced
  | insertion e =>
      rw [Fragment.IsPrintable] at hPrintable
      exact readBraced_insertion hPrintable
  | conditional c t f =>
      rw [Fragment.IsPrintable] at hPrintable
      rcases hPrintable with
        ⟨hReadable, ⟨hApartT, hT⟩, hApartF, hF⟩
      rw [Fragment.inner] at hItem
      refine readBraced_conditional hReadable ⟨hApartT, hT⟩
        ⟨hApartF, hF⟩ (hItem ⟨hApartT, hT⟩ ?_)
        (hItem ⟨hApartF, hF⟩ ?_)
      · simp only [List.length_append, List.length_cons]
        omega
      · cases f with
        | nil => exact Nat.zero_le _
        | cons g gs =>
            rw [List.isEmpty_cons, if_neg (by decide)]
            simp only [List.length_append, List.length_cons]
            omega
  | alternative m items number =>
      refine readBraced_alternative hPrintable ?_
      rw [Fragment.IsPrintable] at hPrintable
      intro fs hMem
      refine hItem
        (itemsArePrintable_iff.mp hPrintable.2 fs hMem) ?_
      rw [Fragment.inner, List.length_append]
      exact le_trans (length_printAll_le hMem)
        (Nat.le_add_left _ _)

end BranchingStory

------------------------------------------------------------
-- Content
------------------------------------------------------------

namespace BranchingStory

variable {line : Nat}
variable {fs : List Fragment}

/-
  Content is read back.  By induction on the bound on the
  nesting: what braces hold is shorter than the content.
-/
theorem readFragmentsWithin_yields
    (n : Nat)
    (hContent : IsContent line fs)
    (hLength : (printAll fs).length ≤ n) :
    Yields (readFragmentsWithin line n (printAll fs)) fs := by
  induction n generalizing fs with
  | zero =>
      cases fs with
      | nil =>
          intro d
          rfl
      | cons f fs =>
          have hPrintable := hContent.printable
          rw [ArePrintable] at hPrintable
          rcases Fragment.print_head hPrintable.1 with
            ⟨c, rest, hFirst, _⟩
          rw [printAll, hFirst] at hLength
          cases hLength
  | succ n ih =>
      have hPrintable := arePrintable_iff.mp hContent.printable
      have hPieces :
          pieces (printAll fs) = fs.flatMap Fragment.pieces :=
        piecesWithin_printAll hPrintable hContent.noDivert
          (Nat.le_refl _)
      change Yields (readPieces line _ [] (pieces _)) fs
      rw [hPieces]
      refine readPieces_yields hPrintable hContent.noDivert
        ?_ [] hContent.apart
      intro f hMem hBraced
      refine readBraced_yields (hPrintable f hMem) hBraced ?_
      intro body hBody hShorter
      have hWithin := length_print_le hMem
      rw [Fragment.print_of_isBraced hBraced, embraced,
        List.length_cons, List.length_append] at hWithin
      exact ih hBody (by omega)

/-
  Content is read back from its print, whatever has been read
  before: with the next numbers for its alternatives, each
  after those within its items, and without an issue.
-/
theorem readFragments_printAll
    (hContent : IsContent line fs)
    (d : Draft) :
    ∃ gs,
      (readFragments line (printAll fs)).run d =
          .ok (gs, { d with
            numbered := d.numbered + (numbersAll fs).length }) ∧
        unnumberedAll gs = unnumberedAll fs ∧
        numbersAll gs =
          List.range' d.numbered (numbersAll fs).length :=
  ⟨renumberAll d.numbered fs,
    readFragmentsWithin_yields _ hContent (Nat.le_refl _) d,
    unnumbered_renumberAll _ _, numbers_renumberAll _ _⟩

/-
  Text with marks in it, and a condition on a quoted brace
  whose branches hold an insertion, a divert and an alternative
  with another one in its second item.
-/
def nestedContent : List Fragment :=
  [.text "\x7ba|b: ->",
    .conditional
      (.binary .equal (.literal (.string "\x7d\""))
        (.name "x" 1 none))
      [.insertion (.unary .not (.name "y" 1 none)),
        .divert ⟨"END", 1, none⟩]
      [.alternative .sequence
        [[], [.alternative .shuffle [[.text "c"]] 8]] 5],
    .text "\\"]

example :
    printAll nestedContent =
      ("\\\x7b\\a\\|\\b\\:\\ \\-\\>" ++
        "\x7b(\"\x7d\\\"\" == x):\x7b(not y)\x7d->END|" ++
        "\x7b|\x7b~\\c\x7d\x7d\x7d\\\\").toList := by
  decide +kernel

/- Both alternatives are numbered, the inner one first. -/
theorem readFragments_nestedContent :
    IsContent 1 nestedContent ∧
      ∃ gs,
        (readFragments 1 (printAll nestedContent)).run ⟨[], 0⟩ =
            .ok (gs, ⟨[], 2⟩) ∧
          unnumberedAll gs = unnumberedAll nestedContent ∧
          numbersAll gs = [0, 1] := by
  have hX : (Token.name "x").IsWritten ∧
      isReference "x" = true :=
    ⟨isWritten_name (by decide) (by decide +kernel)
      (by decide), by decide⟩
  have hY : (Token.name "y").IsWritten ∧
      isReference "y" = true :=
    ⟨isWritten_name (by decide) (by decide +kernel)
      (by decide), by decide⟩
  have hEnd : isAddressText ['E', 'N', 'D'] = true := by
    decide +kernel
  have hContent : IsContent 1 nestedContent := by
    refine ⟨⟨?_, ?_⟩, ?_⟩
    · simp [nestedContent, MayPrecede]
    · simp [nestedContent, ArePrintable, Fragment.IsPrintable,
        ItemsArePrintable, MayPrecede, Mode.leastItems,
        Expr.IsReadable, Value.IsReadable, hX, hY, hEnd]
    · simp [nestedContent, Fragment.isDivert]
  exact ⟨hContent, readFragments_printAll hContent ⟨[], 0⟩⟩

end BranchingStory
