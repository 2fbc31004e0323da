import BranchingStory.Play.Glue
import Mathlib.Data.List.TakeWhile

/-
  This file tells what stands between the lines that are handed
  to the player.  Every line that is kept appears with its own
  text and tags; what stands between two of them depends on the
  joint there, and on the joint after the second one, which may
  leave that line the blanks that it begins with.

  Key definitions include:
    * `Joint`
    * `RenderedLine.jointTo`
    * `RenderedLine.core`
    * `RenderedLine.gapTo`
    * `toldText`

  Key theorems include:
    * `RenderedLine.text_eq`
    * `joinKept_cons`
    * `drop_joinKept`
    * `toldText_joinKept`
    * `joined_lines_are_spaced`
-/

------------------------------------------------------------
-- Joints
------------------------------------------------------------

namespace BranchingStory

/-
  What a line is followed by: the next line itself, a single
  blank, or a line feed.
-/
inductive Joint where
  | tight
  | spaced
  | apart
deriving DecidableEq, Repr

/- The blanks that a text begins with. -/
def blankStart
    (cs : List Char) : List Char :=
  cs.takeWhile isBlank

/- The blanks that a text ends with, if it is not all blank. -/
def blankEnd
    (cs : List Char) : List Char :=
  ((trimStart cs).reverse.takeWhile isBlank).reverse

/- A text is what trimming leaves, and the blanks around it. -/
theorem blankStart_append_trim
    (cs : List Char) :
    blankStart cs ++ trim cs ++ blankEnd cs = cs := by
  rw [List.append_assoc, blankStart, blankEnd, trim, trimEnd,
    ← List.reverse_append, List.takeWhile_append_dropWhile,
    List.reverse_reverse, trimStart,
    List.takeWhile_append_dropWhile]

/- What a text begins and ends with is blank. -/
theorem isBlank_around
    {cs : List Char}
    {c : Char}
    (hMem : c ∈ blankStart cs ++ blankEnd cs) :
    isBlank c = true := by
  rcases List.mem_append.mp hMem with hStart | hEnd
  · exact List.mem_takeWhile_imp hStart
  · exact List.mem_takeWhile_imp (List.mem_reverse.mp hEnd)

namespace RenderedLine

/- Whether a line is glued to the next. -/
def isGluedTo
    (l next : RenderedLine) : Bool :=
  l.glueEnd || next.glueBegin

/- Whether either side of a joint has a blank. -/
def hasSpaceBefore
    (l next : RenderedLine) : Bool :=
  endsWithSpace l.text || beginsWithSpace next.text

/- The joint between a line and the next. -/
def jointTo
    (l next : RenderedLine) : Joint :=
  if l.isGluedTo next then
    if l.hasSpaceBefore next then .spaced else .tight
  else .apart

/- The joint between a line and all that follows it. -/
def jointBefore
    (l : RenderedLine) : List RenderedLine → Joint
  | [] => .apart
  | next :: _ => l.jointTo next

/- The text of a line without the blanks at its ends. -/
def core
    (l : RenderedLine) : List Char :=
  trim l.text.toList

/- The blanks that a line begins with. -/
def lead
    (l : RenderedLine) : List Char :=
  blankStart l.text.toList

/- The blanks that a line ends with. -/
def tail
    (l : RenderedLine) : List Char :=
  blankEnd l.text.toList

/- What stands ahead of the text of a line before a joint. -/
def ahead
    (l : RenderedLine) : Joint → List Char
  | .tight => l.lead
  | _ => []

/- What stands behind the text of a line before a joint. -/
def behind
    (l : RenderedLine) : Joint → List Char
  | .tight => l.tail
  | .spaced => [' ']
  | .apart => ['\n']

/-
  What stands between the text of a line and that of the next,
  which is followed by others.
-/
def gapTo
    (l next : RenderedLine)
    (rest : List RenderedLine) : List Char :=
  l.behind (l.jointTo next) ++
    next.ahead (next.jointBefore rest)

/- A line is its text with the blanks at the two ends. -/
theorem text_eq
    (l : RenderedLine) :
    l.lead ++ l.core ++ l.tail = l.text.toList :=
  blankStart_append_trim l.text.toList

/- The texts of a line and the next across a joint. -/
theorem joined_eq
    (l next : RenderedLine) :
    joined l next =
      String.ofList (l.ahead (l.jointTo next) ++ l.core ++
        l.behind (l.jointTo next)) := by
  unfold joined jointTo isGluedTo hasSpaceBefore
  split
  · split
    · rw [trimString, String.ofList_append]
      rfl
    · change l.text =
        String.ofList (l.lead ++ l.core ++ l.tail)
      rw [l.text_eq, String.ofList_toList]
  · rw [trimString, String.ofList_append]
    rfl

/- What is told of a line that others follow. -/
def toldBefore
    (l : RenderedLine)
    (rest : List RenderedLine) : List Char :=
  l.ahead (l.jointBefore rest) ++ l.core ++
    l.behind (l.jointBefore rest)

end RenderedLine

end BranchingStory

------------------------------------------------------------
-- Joined Lines
------------------------------------------------------------

namespace BranchingStory

/- All text that is handed to the player. -/
def toldText
    (out : List OutputLine) : List Char :=
  out.flatMap fun l => l.text.toList

/- A line is told by itself and what follows it. -/
theorem joinKept_cons
    (l : RenderedLine)
    (rest : List RenderedLine) :
    joinKept (l :: rest) =
      ⟨String.ofList (l.toldBefore rest), l.tags⟩ ::
        joinKept rest := by
  cases rest with
  | nil =>
      rw [joinKept, joinKept, endLine, trimString,
        RenderedLine.toldBefore, String.ofList_append]
      rfl
  | cons next rest =>
      rw [joinKept, l.joined_eq]
      rfl

/- Lines are told alike after any others. -/
theorem drop_joinKept
    (xs rest : List RenderedLine) :
    (joinKept (xs ++ rest)).drop xs.length = joinKept rest := by
  induction xs with
  | nil => rfl
  | cons x xs ih =>
      rw [List.cons_append, joinKept_cons]
      exact ih

/- Every line is told with its own tags. -/
theorem tags_joinKept
    (ls : List RenderedLine) :
    (joinKept ls).map OutputLine.tags =
      ls.map RenderedLine.tags := by
  induction ls with
  | nil => rfl
  | cons l ls ih =>
      rw [joinKept_cons, List.map_cons, List.map_cons, ih]

/- What is told of lines falls apart at each of them. -/
theorem toldText_joinKept
    (xs rest : List RenderedLine) :
    toldText (joinKept (xs ++ rest)) =
      toldText ((joinKept (xs ++ rest)).take xs.length) ++
        toldText (joinKept rest) := by
  rw [← drop_joinKept xs rest, toldText, toldText, toldText,
    ← List.flatMap_append, List.take_append_drop]

/- What is told of a line comes ahead of what follows it. -/
theorem toldText_joinKept_cons
    (l : RenderedLine)
    (rest : List RenderedLine) :
    toldText (joinKept (l :: rest)) =
      l.toldBefore rest ++ toldText (joinKept rest) := by
  rw [joinKept_cons, toldText, List.flatMap_cons]
  simp [toldText]

/- A line that is not blank has a text. -/
theorem RenderedLine.core_ne_nil
    {l : RenderedLine}
    (hKept : l.isBlank = false) :
    l.core ≠ [] := by
  intro hNil
  have hBlank : l.isBlank = true := by
    rw [isBlank, isBlankText, List.all_eq_true, ← l.text_eq,
      hNil, List.append_nil]
    exact fun c hMem => isBlank_around hMem
  rw [hKept] at hBlank
  cases hBlank

/-
  What stands between two lines in a row, told by their joint:
  a line feed, a single blank, or what the first line ends
  with.  What the second line begins with comes after it if
  that line is glued to the one after it without a blank.
-/
theorem RenderedLine.gapTo_eq
    (l next : RenderedLine)
    (rest : List RenderedLine) :
    (l.isGluedTo next = false →
      l.gapTo next rest =
        '\n' :: next.ahead (next.jointBefore rest)) ∧
    (l.isGluedTo next = true → l.hasSpaceBefore next = true →
      l.gapTo next rest =
        ' ' :: next.ahead (next.jointBefore rest)) ∧
    (l.isGluedTo next = true → l.hasSpaceBefore next = false →
      l.gapTo next rest =
        l.tail ++ next.ahead (next.jointBefore rest)) ∧
    (next.ahead (next.jointBefore rest) = [] ↔
      next.lead = [] ∨ next.jointBefore rest ≠ .tight) := by
  refine ⟨?_, ?_, ?_, ?_⟩
  · intro hApart
    simp [gapTo, jointTo, hApart, behind]
  · intro hGlued hSpace
    simp [gapTo, jointTo, hGlued, hSpace, behind]
  · intro hGlued hNone
    simp [gapTo, jointTo, hGlued, hNone, behind]
  · cases next.jointBefore rest with
    | tight => simp [ahead]
    | spaced => simp [ahead]
    | apart => simp [ahead]

/-
  What is told of any lines.  Those that are not blank are told
  in their order, each with its own tags and its own text, and
  the last of them ends with a line feed.  Between two of them
  stands a line feed if they are not glued, a single blank if
  they are and either side of the joint has one, and nothing
  but what the first ends with otherwise.  That is all unless
  the second begins with blanks and is glued to the one after
  it without any at that joint: then it is told as it is, with
  the blanks that it begins with.
-/
theorem joined_lines_are_spaced
    (ls : List RenderedLine) :
    let kept := ls.filter fun l => !l.isBlank
    let out := joinLines ls
    out.map OutputLine.tags = kept.map RenderedLine.tags ∧
    (∀ l ∈ kept, l.core ≠ [] ∧
      l.lead ++ l.core ++ l.tail = l.text.toList ∧
        ∀ c ∈ l.lead ++ l.tail, isBlank c = true) ∧
    (∀ xs l, kept = xs ++ [l] →
      toldText out =
        toldText (out.take xs.length) ++ l.core ++ ['\n']) ∧
    ∀ xs l next rest, kept = xs ++ l :: next :: rest →
      toldText out =
        toldText (out.take xs.length) ++
          l.ahead (l.jointTo next) ++ l.core ++
          l.gapTo next rest ++
          next.core ++ next.behind (next.jointBefore rest) ++
          toldText (out.drop (xs.length + 2)) ∧
      (l.isGluedTo next = false →
        l.gapTo next rest =
          '\n' :: next.ahead (next.jointBefore rest)) ∧
      (l.isGluedTo next = true →
        l.hasSpaceBefore next = true →
          l.gapTo next rest =
            ' ' :: next.ahead (next.jointBefore rest)) ∧
      (l.isGluedTo next = true →
        l.hasSpaceBefore next = false →
          l.gapTo next rest =
            l.tail ++ next.ahead (next.jointBefore rest)) ∧
      (next.ahead (next.jointBefore rest) = [] ↔
        next.lead = [] ∨ next.jointBefore rest ≠ .tight) := by
  intro kept out
  have hOut : out = joinKept kept := rfl
  refine ⟨tags_joinKept kept, ?_, ?_, ?_⟩
  · intro l hMem
    have hKept := (List.mem_filter.mp hMem).2
    rw [Bool.not_eq_true'] at hKept
    exact ⟨l.core_ne_nil hKept, l.text_eq,
      fun c hAround => isBlank_around hAround⟩
  · intro xs l hLast
    have hEnd :
        l.toldBefore [] ++ toldText (joinKept []) =
          l.core ++ ['\n'] := by
      rw [RenderedLine.toldBefore, joinKept, toldText,
        List.flatMap_nil, List.append_nil]
      rfl
    rw [hOut, hLast, toldText_joinKept,
      toldText_joinKept_cons, hEnd, List.append_assoc]
  · intro xs l next rest hSplit
    refine ⟨?_, l.gapTo_eq next rest⟩
    have hRest :
        out.drop (xs.length + 2) = joinKept rest := by
      rw [hOut, hSplit, ← drop_joinKept (xs ++ [l, next]) rest]
      simp
    rw [hRest, hOut, hSplit, toldText_joinKept,
      toldText_joinKept_cons, toldText_joinKept_cons]
    simp only [RenderedLine.toldBefore, RenderedLine.gapTo,
      RenderedLine.jointBefore, List.append_assoc]

/-
  The text of a line that is glued to the one before it with a
  blank, and to the one after it without any, keeps the blank
  that it begins with: two blanks stand at the first joint.
-/
theorem joined_lines_keep_two_spaces :
    joinLines [⟨"one ", false, true, []⟩,
        ⟨" two", false, true, []⟩, ⟨"three", false, false, []⟩] =
      [⟨"one ", []⟩, ⟨" two", []⟩, ⟨"three\n", []⟩] := by
  decide +kernel

end BranchingStory
