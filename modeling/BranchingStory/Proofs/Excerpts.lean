import BranchingStory.Markup.Lines
import BranchingStory.Script.Line

/-
  This file shows that a text is trimmed, split and cut into
  parts of it: what is left are characters of the text, in
  their order.  No part is longer than the text, and neither
  are parts that lie apart if they are taken together.

  Key definitions include:
    * `totalLength`
    * `Piece.width`

  Key theorems include:
    * `trim_sublist`
    * `Marked.split_sublist`
    * `Marked.sublist_of_cut?`
    * `braced_sublist_of_takeBraced?`
    * `pieces_sublist`
    * `splitLines_sublist`
-/

------------------------------------------------------------
-- Trimming
------------------------------------------------------------

namespace BranchingStory

open scoped List

theorem trimStart_sublist
    (cs : List Char) :
    trimStart cs <+ cs :=
  List.dropWhile_sublist _

/- Trimming only leaves characters out. -/
theorem trim_sublist
    (cs : List Char) :
    trim cs <+ cs := by
  have hEnd : trimEnd (trimStart cs) <+ trimStart cs := by
    have hReversed :=
      (List.dropWhile_sublist isBlank
        (l := (trimStart cs).reverse)).reverse
    rwa [List.reverse_reverse] at hReversed
  exact hEnd.trans (trimStart_sublist cs)

/- So does taking glue out. -/
theorem dropGlue_sublist
    (cs : List Char) :
    dropGlue cs <+ cs := by
  fun_induction dropGlue cs with
  | case1 => exact List.Sublist.refl _
  | case2 rest ih => exact (ih.cons _).cons _
  | case3 c rest _ ih => exact ih.cons_cons c

/- The text after a mark is a part of the whole. -/
theorem breakAt_sublist
    (mark : Char)
    (cs : List Char) :
    (breakAt mark cs).2.getD [] <+ cs := by
  induction cs with
  | nil => exact List.Sublist.refl _
  | cons c cs ih =>
      rw [breakAt]
      split
      · exact List.sublist_cons_self c cs
      · exact ih.cons c

end BranchingStory

------------------------------------------------------------
-- Marks
------------------------------------------------------------

namespace BranchingStory

open scoped List

/- The length of several texts taken together. -/
def totalLength : List (List Char) → Nat
  | [] => 0
  | cs :: parts => cs.length + totalLength parts

@[simp] theorem totalLength_cons
    (cs : List Char)
    (parts : List (List Char)) :
    totalLength (cs :: parts) =
      cs.length + totalLength parts := rfl

/- It is the length of the text that they make up. -/
theorem totalLength_eq
    (parts : List (List Char)) :
    totalLength parts = parts.flatten.length := by
  induction parts with
  | nil => rfl
  | cons cs parts ih =>
      rw [totalLength, List.flatten_cons, List.length_append,
        ih]

/- A character in front of parts is in front of the text. -/
@[simp] theorem flatten_consToFirst
    (c : Char)
    (parts : List (List Char)) :
    (consToFirst c parts).flatten = c :: parts.flatten := by
  cases parts <;> rfl

/- Marking a line keeps its characters. -/
@[simp] theorem chars_topLevel
    (cs : List Char) :
    (topLevel cs).chars = cs := by
  have hFrom (depth : Int) (quoted : Bool) :
      Marked.chars (topLevelFrom depth quoted cs) = cs := by
    fun_induction topLevelFrom depth quoted cs <;>
      simp_all [Marked.chars]
  exact hFrom 0 false

/- So does marking a text between braces. -/
@[simp] theorem chars_braceLevel
    (cs : List Char) :
    (braceLevel cs).chars = cs := by
  have hFrom (depth parens : Int) (quoted : Bool) :
      Marked.chars (braceLevelFrom depth parens quoted cs) =
        cs := by
    fun_induction braceLevelFrom depth parens quoted cs <;>
      simp_all [Marked.chars]
  exact hFrom 0 0 false

namespace Marked

@[simp] theorem length_chars
    (ms : Marked) :
    ms.chars.length = ms.length := by
  simp [chars]

/- Marking a text between braces keeps its length. -/
theorem length_braceLevel
    (cs : List Char) :
    (braceLevel cs).length = cs.length := by
  rw [← length_chars, chars_braceLevel]

/- What stands between marks are parts of the text. -/
theorem split_sublist
    (mark : Char)
    (ms : Marked) :
    (ms.split mark).flatten <+ ms.chars := by
  induction ms with
  | nil => exact List.Sublist.refl _
  | cons m ms ih =>
      rcases m with ⟨c, isOpen⟩
      rw [split]
      split
      · exact ih.cons c
      · rw [flatten_consToFirst]
        exact ih.cons_cons c

/- What stands between arrows are parts of the text. -/
theorem splitArrows_sublist
    (ms : Marked) :
    ms.splitArrows.flatten <+ ms.chars := by
  fun_induction splitArrows ms with
  | case1 => exact List.Sublist.refl _
  | case2 isOpen rest ih => exact (ih.cons _).cons _
  | case3 c isOpen rest _ ih =>
      rw [flatten_consToFirst]
      exact ih.cons_cons c

/- The two parts of a text that is cut at a mark. -/
theorem sublist_of_cut?
    {mark : Char}
    {ms before after : Marked}
    (hCut : ms.cut? mark = some (before, after)) :
    before.chars ++ after.chars <+ ms.chars := by
  induction ms generalizing before with
  | nil => cases hCut
  | cons m ms ih =>
      rcases m with ⟨c, isOpen⟩
      rw [cut?] at hCut
      split at hCut
      · cases hCut
        exact (List.Sublist.refl _).cons c
      · rcases Option.map_eq_some_iff.mp hCut with
          ⟨⟨before', after'⟩, hRest, hPair⟩
        cases hPair
        exact (ih hRest).cons_cons c

/- They are together no longer. -/
theorem length_cut?
    {mark : Char}
    {ms before after : Marked}
    (hCut : ms.cut? mark = some (before, after)) :
    before.length + after.length ≤ ms.length := by
  simpa using (sublist_of_cut? hCut).length_le

end Marked

/- A line without its tags is a part of the line. -/
theorem splitTags_sublist
    (cs : List Char) :
    (splitTags cs).1 <+ cs := by
  have hParts := Marked.split_sublist '#' (topLevel cs)
  rw [chars_topLevel] at hParts
  unfold splitTags
  split
  · exact List.Sublist.refl _
  · next content tags hSplit =>
      rw [hSplit] at hParts
      exact (List.sublist_append_left _ _).trans hParts

/- The right side of an assignment is a part of its text. -/
theorem sublist_of_assignmentParts?
    {op : Option BinaryOp}
    {cs value : List Char}
    (hParts : assignmentParts? cs = some (op, value)) :
    value <+ cs := by
  unfold assignmentParts? at hParts
  split at hParts
  · cases hParts
  · cases hParts
    exact (trimStart_sublist _).cons _
  · cases hParts
  · cases hParts
    exact ((trimStart_sublist _).cons _).cons _
  · cases hParts
  · cases hParts
    exact ((trimStart_sublist _).cons _).cons _
  · cases hParts

end BranchingStory

------------------------------------------------------------
-- Braces
------------------------------------------------------------

namespace BranchingStory

open scoped List

variable {depth : Nat}
variable {quoted : Bool}
variable {cs inner rest : List Char}

/-
  The text in braces, the closing brace and the text after it
  are, one after the other, parts of the text.
-/
theorem braced_sublist_of_takeBraced?
    (hTaken :
      takeBraced? depth quoted cs = some (inner, rest)) :
    inner ++ '}' :: rest <+ cs := by
  have hBefore {cs ds : List Char}
      {found : Option (List Char × List Char)}
      {inner rest : List Char}
      (hFound :
        ∀ inner' rest', found = some (inner', rest') →
          inner' ++ '}' :: rest' <+ ds)
      (hSome :
        found.map (consBefore cs) = some (inner, rest)) :
      inner ++ '}' :: rest <+ cs ++ ds := by
    rcases Option.map_eq_some_iff.mp hSome with
      ⟨⟨inner', rest'⟩, hMore, hPair⟩
    cases hPair
    rw [List.append_assoc]
    exact (hFound inner' rest' hMore).append_left cs
  fun_induction takeBraced? depth quoted cs
      generalizing inner rest with
  | case1 => cases hTaken
  | case2 => cases hTaken
  | case7 =>
      cases hTaken
      exact List.Sublist.refl _
  | _ => exact hBefore (by assumption) hTaken

/- The same without the brace. -/
theorem sublist_of_takeBraced?
    (hTaken :
      takeBraced? depth quoted cs = some (inner, rest)) :
    inner ++ rest <+ cs :=
  ((List.sublist_cons_self _ _).append_left inner).trans
    (braced_sublist_of_takeBraced? hTaken)

/- They are shorter, as the closing brace is left out. -/
theorem length_takeBraced?
    (hTaken :
      takeBraced? depth quoted cs = some (inner, rest)) :
    inner.length + rest.length < cs.length := by
  have hLength :=
    (braced_sublist_of_takeBraced? hTaken).length_le
  rw [List.length_append, List.length_cons] at hLength
  omega

/- The text in braces, with the brace that closes it. -/
def Piece.closed : Piece → List Char
  | .braced inner => inner ++ ['}']
  | _ => []

/- How many characters the text in braces takes up. -/
def Piece.width : Piece → Nat
  | .braced inner => inner.length + 1
  | _ => 0

/- How many characters the braces of a text take up. -/
def totalWidth : List Piece → Nat
  | [] => 0
  | p :: ps => p.width + totalWidth ps

/- It is the length of the texts with their braces. -/
theorem totalWidth_eq
    (ps : List Piece) :
    totalWidth ps = (ps.flatMap Piece.closed).length := by
  induction ps with
  | nil => rfl
  | cons p ps ih =>
      have hWidth : p.width = p.closed.length := by
        cases p <;> simp [Piece.width, Piece.closed]
      rw [totalWidth, List.flatMap_cons, List.length_append,
        ih, hWidth]

/- What stands in braces are parts of the text. -/
theorem pieces_sublist
    (cs : List Char) :
    (pieces cs).flatMap Piece.closed <+ cs := by
  have hWithin (n : Nat) (cs : List Char) :
      (piecesWithin n cs).flatMap Piece.closed <+ cs := by
    fun_induction piecesWithin n cs with
    | case1 => exact List.nil_sublist _
    | case2 => exact List.nil_sublist _
    | case3 n c rest ih => exact (ih.cons _).cons _
    | case4 n rest ih => exact ih.cons _
    | case5 n rest => exact List.nil_sublist _
    | case6 n rest inner rest' hTaken ih =>
        rw [List.flatMap_cons, Piece.closed,
          List.append_assoc]
        exact (((ih.cons_cons '}').append_left inner).trans
          (braced_sublist_of_takeBraced? hTaken)).cons _
    | case7 n c rest _ _ _ ih => exact ih.cons _
  exact hWithin cs.length cs

/- The pieces of a text are together no longer. -/
theorem totalWidth_pieces_le
    (cs : List Char) :
    totalWidth (pieces cs) ≤ cs.length := by
  rw [totalWidth_eq]
  exact (pieces_sublist cs).length_le

/- A text in braces is a part of the text around it. -/
theorem sublist_of_mem_pieces
    (hMem : Piece.braced inner ∈ pieces cs) :
    inner ++ ['}'] <+ cs :=
  (List.sublist_flatten_of_mem
    (List.mem_map_of_mem hMem)).trans (pieces_sublist cs)

/- The items of an alternative are parts of its text. -/
theorem alternativeParts_sublist
    (inner : Marked) :
    (alternativeParts inner).2.flatten <+ inner.chars := by
  unfold alternativeParts
  split
  · exact Marked.split_sublist _ _
  · next c isOpen rest hDrop =>
      split
      · have hRest : (c, isOpen) :: rest <+ inner := by
          rw [← hDrop]
          exact List.dropWhile_sublist _
        exact (Marked.split_sublist _ _).trans
          (((List.sublist_cons_self _ _).trans hRest).map _)
      · exact Marked.split_sublist _ _

/- So is each of them. -/
theorem sublist_of_mem_alternativeParts
    {inner : Marked}
    {part : List Char}
    (hMem : part ∈ (alternativeParts inner).2) :
    part <+ inner.chars :=
  (List.sublist_flatten_of_mem hMem).trans
    (alternativeParts_sublist inner)

end BranchingStory

------------------------------------------------------------
-- Lines
------------------------------------------------------------

namespace BranchingStory

open scoped List

/- The lines of a text are parts of it. -/
theorem splitLines_sublist
    (cs : List Char) :
    (splitLines cs).flatten <+ cs := by
  fun_induction splitLines cs with
  | case1 => exact List.Sublist.refl _
  | case2 rest ih => exact (ih.cons _).cons _
  | case3 c rest _ _ ih => exact ih.cons _
  | case4 c rest _ _ ih =>
      rw [flatten_consToFirst]
      exact ih.cons_cons c

/- There are no more of them than characters. -/
theorem length_splitLines_le
    (cs : List Char) :
    (splitLines cs).length ≤ cs.length := by
  have hFirst (c : Char) (lines : List (List Char)) :
      (consToFirst c lines).length ≤ lines.length + 1 := by
    cases lines <;> simp [consToFirst]
  fun_induction splitLines cs with
  | case1 => exact Nat.le_refl _
  | case2 rest ih =>
      simp only [List.length_cons]
      omega
  | case3 c rest _ _ ih => exact Nat.succ_le_succ ih
  | case4 c rest _ _ ih =>
      exact Nat.le_trans (hFirst c _) (Nat.succ_le_succ ih)

/- What stands before a comment is a part of the line. -/
theorem cutComment_sublist
    (depth : Nat)
    (quoted : Bool)
    (cs : List Char) :
    (cutComment depth quoted cs).1 <+ cs := by
  fun_induction cutComment depth quoted cs <;>
    simp_all [consBeforeCut]

/- The name in a header is a part of it. -/
theorem headerName_sublist
    (cs : List Char) :
    headerName cs <+ cs := by
  unfold headerName
  refine (trim_sublist _).trans ?_
  have hEnd :=
    (List.dropWhile_sublist (· == '=')
      (l := (cs.dropWhile (· == '=')).reverse)).reverse
  rw [List.reverse_reverse] at hEnd
  exact hEnd.trans (List.dropWhile_sublist _)

/- What comes after the dashes is a part of the line. -/
theorem takeDashes_sublist
    (cs : List Char) :
    (takeDashes cs).2 <+ cs := by
  fun_induction takeDashes cs with
  | case1 => exact List.Sublist.refl _
  | case2 rest => exact List.Sublist.refl _
  | case3 rest n rest' hRest _ ih =>
      rw [hRest] at ih
      exact ih.cons _
  | case4 c rest _ _ _ ih => exact ih.cons _
  | case5 c rest _ _ _ => exact List.Sublist.refl _

end BranchingStory
