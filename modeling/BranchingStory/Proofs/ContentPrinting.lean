import BranchingStory.Proofs.Paths
import BranchingStory.Proofs.Printing

/-
  This file prints content: text with every character escaped,
  and insertions, conditional text and alternatives in braces.
  It shows that every scanner passes over what is printed.

  Key definitions include:
    * `Fragment.print`
    * `printAll`
    * `MayPrecede`
    * `Fragment.IsPrintable`
    * `ArePrintable`

  Key theorems include:
    * `Fragment.shielded`
    * `shielded_printAll`
    * `isMarked_printAll`
-/

------------------------------------------------------------
-- Printing
------------------------------------------------------------

namespace BranchingStory

/- A text with a backslash in front of every character. -/
def backslashed : List Char → List Char
  | [] => []
  | c :: cs => '\\' :: c :: backslashed cs

/- The mark of a mode, which an alternative begins with. -/
def Mode.mark : Mode → List Char
  | .sequence => []
  | .cycle => ['&']
  | .once => ['!']
  | .shuffle => ['~']

/- The fewest items that an alternative of a mode has. -/
def Mode.leastItems : Mode → Nat
  | .sequence => 2
  | .cycle => 1
  | .once => 2
  | .shuffle => 1

/- A text in braces. -/
def embraced
    (cs : List Char) : List Char :=
  '{' :: (cs ++ ['}'])

/- An arrow and what it leads to. -/
def arrowTo
    (target : List Char) : List Char :=
  '-' :: '>' :: target

mutual

/-
  A fragment as it is written.  What is shown if a condition
  does not hold is left out, with its bar, if it is nothing.
-/
def Fragment.print : Fragment → List Char
  | .text s => backslashed s.toList
  | .insertion e => embraced e.print
  | .conditional c t f =>
      embraced (c.print ++ ':' :: (printAll t ++
        if f.isEmpty then [] else '|' :: printAll f))
  | .alternative m items _ =>
      embraced (m.mark ++ printItems items)
  | .divert d => arrowTo d.target.toList

/- Fragments as they are written, one after the other. -/
def printAll : List Fragment → List Char
  | [] => []
  | f :: fs => f.print ++ printAll fs

/- The items of an alternative, with bars between them. -/
def printItems : List (List Fragment) → List Char
  | [] => []
  | fs :: items =>
      printAll fs ++
        if items.isEmpty then [] else '|' :: printItems items

end

/- Whether a fragment is written in braces. -/
def Fragment.isBraced : Fragment → Bool
  | .text _ | .divert _ => false
  | _ => true

/- What the braces of a fragment hold. -/
def Fragment.inner : Fragment → List Char
  | .insertion e => e.print
  | .conditional c t f =>
      c.print ++ ':' :: (printAll t ++
        if f.isEmpty then [] else '|' :: printAll f)
  | .alternative m items _ => m.mark ++ printItems items
  | _ => []

/- A fragment in braces is what they hold, in braces. -/
theorem Fragment.print_of_isBraced
    {f : Fragment}
    (hBraced : f.isBraced = true) :
    f.print = embraced f.inner := by
  cases f with
  | text s => cases hBraced
  | divert d => cases hBraced
  | _ => simp only [print, inner]

@[simp] theorem printAll_append
    (fs gs : List Fragment) :
    printAll (fs ++ gs) = printAll fs ++ printAll gs := by
  induction fs with
  | nil => rfl
  | cons f fs ih =>
      rw [List.cons_append, printAll, printAll, ih,
        List.append_assoc]

/- A fragment is no longer than all of them. -/
theorem length_print_le
    {f : Fragment}
    {fs : List Fragment}
    (hMem : f ∈ fs) :
    f.print.length ≤ (printAll fs).length := by
  rcases List.append_of_mem hMem with ⟨before, after, rfl⟩
  rw [printAll_append, printAll, List.length_append,
    List.length_append]
  omega

/- An item is no longer than all items with their bars. -/
theorem length_printAll_le
    {fs : List Fragment}
    {items : List (List Fragment)}
    (hMem : fs ∈ items) :
    (printAll fs).length ≤ (printItems items).length := by
  induction items with
  | nil => cases hMem
  | cons gs items ih =>
      rw [printItems, List.length_append]
      rcases List.mem_cons.mp hMem with rfl | hRest
      · exact Nat.le_add_right _ _
      · have hSome : items.isEmpty = false := by
          cases items with
          | nil => cases hRest
          | cons _ _ => rfl
        rw [hSome, if_neg (by decide), List.length_cons]
        exact le_trans (ih hRest)
          (le_trans (Nat.le_succ _) (Nat.le_add_left _ _))

end BranchingStory

------------------------------------------------------------
-- What Can Be Printed
------------------------------------------------------------

namespace BranchingStory

/- Whether a fragment is a divert. -/
def Fragment.isDivert : Fragment → Bool
  | .divert _ => true
  | _ => false

/-
  Whether a fragment may be followed by another one: a text by
  no further text, and a divert by nothing at all.
-/
def MayPrecede : Fragment → Fragment → Prop
  | .text _, .text _ => False
  | .divert _, _ => False
  | _, _ => True

mutual

/-
  Whether a fragment can be printed.  Texts are not empty,
  expressions are ones that can be read at all on the line,
  and branches and items may end in a divert.
-/
def Fragment.IsPrintable
    (line : Nat) : Fragment → Prop
  | .text s => s ≠ ""
  | .insertion e => e.IsReadable line
  | .conditional c t f =>
      c.IsReadable line ∧
        (t.IsChain MayPrecede ∧ ArePrintable line t) ∧
        (f.IsChain MayPrecede ∧ ArePrintable line f)
  | .alternative m items _ =>
      m.leastItems ≤ items.length ∧
        ItemsArePrintable line items
  | .divert d =>
      isAddressText d.target.toList = true ∧
        d.line = line ∧ d.destination = none

/- Whether all fragments can be printed. -/
def ArePrintable
    (line : Nat) : List Fragment → Prop
  | [] => True
  | f :: fs => f.IsPrintable line ∧ ArePrintable line fs

/- Whether all items of an alternative can be printed. -/
def ItemsArePrintable
    (line : Nat) : List (List Fragment) → Prop
  | [] => True
  | fs :: items =>
      (fs.IsChain MayPrecede ∧ ArePrintable line fs) ∧
        ItemsArePrintable line items

end

/-
  Whether fragments are the branch of a condition or an item
  of an alternative: no text follows another text, and nothing
  follows a divert.
-/
structure IsBranch
    (line : Nat)
    (fs : List Fragment) : Prop where
  apart : fs.IsChain MayPrecede
  printable : ArePrintable line fs

/- Whether fragments are content: a branch without a divert. -/
structure IsContent
    (line : Nat)
    (fs : List Fragment) : Prop
    extends IsBranch line fs where
  noDivert : ∀ f ∈ fs, f.isDivert = false

variable {line : Nat}

theorem arePrintable_iff
    {fs : List Fragment} :
    ArePrintable line fs ↔ ∀ f ∈ fs, f.IsPrintable line := by
  induction fs with
  | nil => simp [ArePrintable]
  | cons f fs ih =>
      rw [ArePrintable, ih, List.forall_mem_cons]

theorem itemsArePrintable_iff
    {items : List (List Fragment)} :
    ItemsArePrintable line items ↔
      ∀ fs ∈ items, IsBranch line fs := by
  induction items with
  | nil => simp [ItemsArePrintable]
  | cons fs items ih =>
      rw [ItemsArePrintable, ih, List.forall_mem_cons]
      exact and_congr_left'
        ⟨fun hBoth => ⟨hBoth.1, hBoth.2⟩,
          fun hBranch => ⟨hBranch.apart, hBranch.printable⟩⟩

/-
  A branch is content, or content with a divert after it: by
  induction on the branch, as nothing follows a divert.
-/
theorem IsBranch.isContent_or
    {fs : List Fragment}
    (hBranch : IsBranch line fs) :
    IsContent line fs ∨
      ∃ body d, fs = body ++ [.divert d] ∧
        IsContent line body ∧
          (Fragment.divert d).IsPrintable line := by
  rcases hBranch with ⟨hApart, hPrintable⟩
  induction fs with
  | nil => exact Or.inl ⟨⟨hApart, hPrintable⟩, by simp⟩
  | cons f fs ih =>
      have hAll := hPrintable
      rw [ArePrintable] at hPrintable
      cases hDivert : f.isDivert with
      | true =>
          cases f with
          | divert d =>
              cases fs with
              | nil =>
                  exact Or.inr ⟨[], d, rfl,
                    ⟨⟨.nil, trivial⟩, by simp⟩, hPrintable.1⟩
              | cons g fs =>
                  rw [List.isChain_cons_cons] at hApart
                  exact hApart.1.elim
          | _ => cases hDivert
      | false =>
          rcases ih hApart.tail hPrintable.2 with
            hRest | ⟨body, d, rfl, hBody, hTarget⟩
          · refine Or.inl ⟨⟨hApart, hAll⟩, ?_⟩
            rw [List.forall_mem_cons]
            exact ⟨hDivert, hRest.noDivert⟩
          · refine Or.inr ⟨f :: body, d, rfl,
              ⟨⟨?_, ?_⟩, ?_⟩, hTarget⟩
            · exact List.IsChain.left_of_append hApart
            · exact ⟨hPrintable.1, hBody.printable⟩
            · rw [List.forall_mem_cons]
              exact ⟨hDivert, hBody.noDivert⟩

end BranchingStory

------------------------------------------------------------
-- Scanning What Is Printed
------------------------------------------------------------

namespace BranchingStory

variable {line : Nat}

/- An address is made of word characters and points. -/
theorem isDotted_of_isAddressText
    {cs : List Char}
    (hAddress : isAddressText cs = true) :
    IsDotted isWordChar cs := by
  rw [isAddressText] at hAddress
  rcases breakAt_cases '.' cs with
    hBreak | ⟨knot, stitch, rfl, hBreak⟩
  · rw [hBreak] at hAddress
    exact .run (isRun_of_isName hAddress)
  · rw [hBreak] at hAddress
    dsimp only at hAddress
    rw [Bool.and_eq_true] at hAddress
    exact .pair (isRun_of_isName hAddress.1)
      (isRun_of_isName hAddress.2)

/- The print of an expression is passed over within braces. -/
theorem shielded_print
    {e : Expr}
    (hReadable : e.IsReadable line) :
    Shielded 1 e.print 0 := by
  rcases phrase_of_print hReadable with ⟨p, hTokens, _⟩
  have hShielded := (spelled_of_tokens hTokens).shielded
  rwa [p.totalShift_tokens] at hShielded

/- Escaped text is passed over everywhere. -/
theorem shielded_backslashed
    (cs : List Char) :
    Shielded 0 (backslashed cs) 0 := by
  induction cs with
  | nil => exact .nil
  | cons c cs ih => exact (Shielded.escaped c).append ih

/- An arrow with its target is passed over within braces. -/
theorem shielded_arrowTo
    {cs : List Char}
    (hAddress : isAddressText cs = true) :
    Shielded 1 (arrowTo cs) 0 := by
  refine .plain_all ?_
  rw [arrowTo, List.forall_mem_cons, List.forall_mem_cons]
  exact ⟨by decide, by decide, fun c hMem =>
    (isPlain_of_isDotted (by decide)
      (isDotted_of_isAddressText hAddress) c hMem).1⟩

/-
  A fragment is passed over within braces, and everywhere
  unless it is a divert, if what its braces hold is.
-/
theorem Fragment.shielded_of_inner
    {f : Fragment}
    (hPrintable : f.IsPrintable line)
    (hInner : Shielded 1 f.inner 0) :
    Shielded 1 f.print 0 ∧
      (f.isDivert = false → Shielded 0 f.print 0) := by
  cases hBraced : f.isBraced with
  | true =>
      rw [print_of_isBraced hBraced]
      exact ⟨hInner.braces.mono (by decide),
        fun _ => hInner.braces⟩
  | false =>
      cases f with
      | text s =>
          have hText := shielded_backslashed s.toList
          exact ⟨hText.mono (by decide), fun _ => hText⟩
      | divert d =>
          rw [IsPrintable] at hPrintable
          refine ⟨shielded_arrowTo hPrintable.1, ?_⟩
          rintro ⟨⟩
      | _ => cases hBraced

mutual

/- What the braces of a fragment hold is passed over in them. -/
theorem Fragment.shielded_inner
    (f : Fragment)
    (hPrintable : f.IsPrintable line) :
    Shielded 1 f.inner 0 := by
  cases f with
  | text s => exact .nil
  | insertion e =>
      rw [Fragment.IsPrintable] at hPrintable
      exact shielded_print hPrintable
  | conditional c t f =>
      rw [Fragment.IsPrintable] at hPrintable
      rcases hPrintable with ⟨hCondition, ⟨_, hT⟩, _, hF⟩
      refine (shielded_print hCondition).append_balanced
        ((Shielded.plain (by decide)).append_balanced
          ((shielded_printAll t hT).append_balanced ?_))
      split
      · exact .nil
      · exact (Shielded.plain (by decide)).append_balanced
          (shielded_printAll f hF)
  | alternative m items number =>
      rw [Fragment.IsPrintable] at hPrintable
      have hMark : Shielded 1 m.mark 0 := by
        cases m with
        | sequence => exact .nil
        | _ => exact .plain (by decide)
      exact hMark.append_balanced
        (shielded_printItems items hPrintable.2)
  | divert d => exact .nil

/- Fragments are passed over one after the other. -/
theorem shielded_printAll
    (fs : List Fragment)
    (hPrintable : ArePrintable line fs) :
    Shielded 1 (printAll fs) 0 := by
  cases fs with
  | nil => exact .nil
  | cons f fs =>
      rw [ArePrintable] at hPrintable
      exact (Fragment.shielded_of_inner hPrintable.1
        (f.shielded_inner hPrintable.1)).1.append_balanced
          (shielded_printAll fs hPrintable.2)

/- The same for the items of an alternative and their bars. -/
theorem shielded_printItems
    (items : List (List Fragment))
    (hPrintable : ItemsArePrintable line items) :
    Shielded 1 (printItems items) 0 := by
  cases items with
  | nil => exact .nil
  | cons fs items =>
      rw [ItemsArePrintable] at hPrintable
      refine (shielded_printAll fs
        hPrintable.1.2).append_balanced ?_
      split
      · exact .nil
      · exact (Shielded.plain (by decide)).append_balanced
          (shielded_printItems items hPrintable.2)

end

/- A fragment other than a divert is passed over everywhere. -/
theorem Fragment.shielded
    {f : Fragment}
    (hPrintable : f.IsPrintable line)
    (hDivert : f.isDivert = false) :
    Shielded 0 f.print 0 :=
  (shielded_of_inner hPrintable
    (f.shielded_inner hPrintable)).2 hDivert

/- Content is passed over everywhere. -/
theorem IsContent.shielded
    {fs : List Fragment}
    (hContent : IsContent line fs) :
    Shielded 0 (printAll fs) 0 := by
  have hPrintable := arePrintable_iff.mp hContent.printable
  have hNone := hContent.noDivert
  clear hContent
  induction fs with
  | nil => exact .nil
  | cons f fs ih =>
      rw [List.forall_mem_cons] at hPrintable hNone
      exact (Fragment.shielded hPrintable.1
        hNone.1).append_balanced (ih hPrintable.2 hNone.2)

end BranchingStory

------------------------------------------------------------
-- Marks Of What Is Printed
------------------------------------------------------------

namespace BranchingStory

variable {line : Nat}

/- No mark within a fragment is open between braces. -/
theorem Fragment.isMarked
    {f : Fragment}
    (hPrintable : f.IsPrintable line) :
    IsMarked f.print 0 0 False := by
  cases hDivert : f.isDivert with
  | false => exact (shielded hPrintable hDivert).isMarked
  | true =>
      cases f with
      | divert d =>
          rw [Fragment.IsPrintable] at hPrintable
          have hPlain :=
            isPlain_of_isDotted (by decide)
              (isDotted_of_isAddressText hPrintable.1)
          have hArrow :
              ∀ c ∈ arrowTo d.target.toList,
                isSpecial c = false ∧ c ≠ ':' ∧ c ≠ '|' := by
            rw [arrowTo, List.forall_mem_cons,
              List.forall_mem_cons]
            exact ⟨by decide, by decide, hPlain⟩
          have hMarked :=
            isMarked_of_plain (fun c hMem => (hArrow c hMem).1)
              (fun hMem => (hArrow ':' hMem).2.1 rfl) 0
          have hBar : ¬ '|' ∈ arrowTo d.target.toList :=
            fun hMem => (hArrow '|' hMem).2.2 rfl
          simp only [hBar, and_false] at hMarked
          exact hMarked
      | _ => cases hDivert

/- No mark within fragments is open between braces. -/
theorem isMarked_printAll
    {fs : List Fragment}
    (hPrintable : ArePrintable line fs) :
    IsMarked (printAll fs) 0 0 False := by
  induction fs with
  | nil => exact Shielded.nil.isMarked
  | cons f fs ih =>
      rw [ArePrintable] at hPrintable
      have hAll :=
        (Fragment.isMarked hPrintable.1).append
          (ih hPrintable.2)
      simp only [or_self] at hAll
      exact hAll

/- The marks of a text whose own marks are not open. -/
theorem braceLevel_append
    {cs : List Char}
    (hMarked : IsMarked cs 0 0 False)
    (rest : List Char) :
    ∃ ms, braceLevel (cs ++ rest) = ms ++ braceLevel rest ∧
      ms.chars = cs ∧ (':', true) ∉ ms ∧ ('|', true) ∉ ms := by
  rcases hMarked rest with ⟨ms, hMarks, hChars, hColon, hBar⟩
  exact ⟨ms, hMarks, hChars, hColon, hBar.mp⟩

/- A text without open marks, alone between braces. -/
theorem braceLevel_of_isMarked
    {cs : List Char}
    (hMarked : IsMarked cs 0 0 False) :
    (braceLevel cs).chars = cs ∧
      (':', true) ∉ braceLevel cs ∧
      ('|', true) ∉ braceLevel cs := by
  rcases braceLevel_append hMarked [] with
    ⟨ms, hMarks, hNone⟩
  have hNil : braceLevel [] = [] := rfl
  rw [List.append_nil, hNil, List.append_nil] at hMarks
  rw [hMarks]
  exact hNone

/- A plain character outside everything else is open. -/
theorem braceLevel_cons
    {c : Char}
    (hPlain : isSpecial c = false)
    (rest : List Char) :
    braceLevel (c :: rest) = (c, true) :: braceLevel rest := by
  rw [braceLevel, braceLevelFrom_plain hPlain]
  rfl

/-
  The items of an alternative are what stands between its open
  bars, of which there is one less, and no colon is open.
-/
theorem marks_of_printItems
    {fs : List Fragment}
    {items : List (List Fragment)}
    (hPrintable : ItemsArePrintable line (fs :: items)) :
    (braceLevel (printItems (fs :: items))).split '|' =
        printAll fs :: items.map printAll ∧
      (braceLevel (printItems (fs :: items))).countOpen '|' =
        items.length ∧
      (':', true) ∉ braceLevel (printItems (fs :: items)) := by
  induction items generalizing fs with
  | nil =>
      rw [ItemsArePrintable] at hPrintable
      rcases braceLevel_of_isMarked
          (isMarked_printAll hPrintable.1.2) with
        ⟨hChars, hColon, hBar⟩
      rw [printItems, List.isEmpty_nil, if_pos rfl,
        List.append_nil, Marked.split_of_notMem hBar, hChars,
        Marked.countOpen_eq_zero_iff.mpr hBar]
      exact ⟨rfl, rfl, hColon⟩
  | cons gs items ih =>
      rw [ItemsArePrintable] at hPrintable
      rcases ih hPrintable.2 with ⟨hSplit, hCount, hNone⟩
      rcases braceLevel_append
          (isMarked_printAll hPrintable.1.2)
          ('|' :: printItems (gs :: items)) with
        ⟨ms, hMarks, hChars, hColon, hBar⟩
      rw [braceLevel_cons (by decide)] at hMarks
      rw [printItems, List.isEmpty_cons,
        if_neg (by decide), hMarks,
        Marked.split_append hBar, hChars, hSplit,
        Marked.countOpen_append,
        Marked.countOpen_eq_zero_iff.mpr hBar]
      refine ⟨rfl, ?_, ?_⟩
      · rw [Marked.countOpen, List.countP_cons_of_pos (by simp),
          ← Marked.countOpen, hCount, List.length_cons]
        omega
      · rw [List.mem_append, List.mem_cons]
        rintro (hMem | hSame | hMem)
        · exact hColon hMem
        · exact absurd hSame (by decide)
        · exact hNone hMem

end BranchingStory
