import BranchingStory.Proofs.Drafts
import BranchingStory.Script.Line

/-
  This file says what comments leave behind when a script is
  split into logical lines: nothing but reminders of the
  author.  A line that holds only blanks and maybe a comment
  is silent: it yields no logical line.

  Key definitions include:
    * `commentMark`
    * `reminders`
    * `IsSilent`

  Key theorems include:
    * `cutComment_ignored`
    * `run_dropComment`
    * `run_readScriptLine_of_isSilent`
-/

------------------------------------------------------------
-- Comments
------------------------------------------------------------

namespace BranchingStory

open Reading

/- The two characters that begin a comment. -/
def commentMark : List Char :=
  ['/', '/']

/- Whether the search for a comment ignores a character. -/
def isIgnored
    (c : Char) : Bool :=
  !(['\\', '"', '{', '}', '/'].contains c)

/- What the search for a comment ignores is passed over. -/
theorem cutComment_ignored
    {cs : List Char}
    (hIgnored : cs.all isIgnored = true)
    (depth : Nat)
    (rest : List Char) :
    cutComment depth false (cs ++ rest) =
      (cs ++ (cutComment depth false rest).1,
        (cutComment depth false rest).2) := by
  induction cs with
  | nil => rfl
  | cons c cs ih =>
      rw [List.all_cons, Bool.and_eq_true] at hIgnored
      have hNone (sign : Char)
          (hSign : isIgnored sign = false) :
          c ≠ sign := by
        rintro rfl
        rw [hIgnored.1] at hSign
        cases hSign
      rw [List.cons_append, cutComment,
        if_neg Bool.false_ne_true,
        if_neg (hNone '{' (by decide)),
        if_neg (hNone '}' (by decide)),
        if_neg fun hQuote => hNone '"' (by decide) hQuote.1,
        if_neg fun hSlash => hNone '/' (by decide) hSlash.1,
        ih hIgnored.2]
      · rfl
      · intro hLast
        exact absurd hLast (hNone '\\' (by decide))
      · intro c' cs' hLast
        exact absurd hLast (hNone '\\' (by decide))

/- The reminder that a comment is, if it is one. -/
def reminders
    (line : Nat)
    (comment : Option (List Char)) : List Issue :=
  (comment.bind reminder?).toList.map fun note =>
    ⟨.todo (String.ofList note), line⟩

/- A comment that is cut leaves only its reminder behind. -/
theorem run_dropComment
    (line : Nat)
    (cs : List Char)
    (d : Draft) :
    (dropComment line cs).run d =
      .ok ((cutComment 0 false cs).1,
        ⟨d.issues ++ reminders line (cutComment 0 false cs).2,
          d.numbered⟩) := by
  unfold dropComment
  generalize cutComment 0 false cs = parts
  rcases parts with ⟨content, comment⟩
  rw [reminders]
  cases hNote : comment.bind reminder? with
  | none =>
      simp only [hNote, Option.toList_none, List.map_nil,
        List.append_nil]
      rfl
  | some note =>
      simp only [hNote]
      rfl

end BranchingStory

------------------------------------------------------------
-- Silent Lines
------------------------------------------------------------

namespace BranchingStory

open Reading

/-
  Whether a line is silent: there are only blanks on it, or
  only a comment after blanks.
-/
def IsSilent
    (cs : List Char) : Prop :=
  ∃ gap rest, cs = gap ++ rest ∧
    gap.all isBlank = true ∧
    (rest = [] ∨ ∃ comment, rest = commentMark ++ comment)

/- The search for a comment ignores blanks. -/
theorem isIgnored_of_isBlank
    {c : Char}
    (hBlank : isBlank c = true) :
    isIgnored c = true := by
  rw [← Bool.not_eq_false]
  intro hSign
  simp only [isIgnored, Bool.not_eq_false',
    List.contains_eq_mem, List.mem_cons, List.not_mem_nil,
    or_false, decide_eq_true_eq] at hSign
  rcases hSign with rfl | rfl | rfl | rfl | rfl <;>
    exact absurd hBlank (by decide)

/- Nothing but blanks is left of a silent line. -/
theorem trim_cutComment_of_isSilent
    {cs : List Char}
    (hSilent : IsSilent cs) :
    trim (cutComment 0 false cs).1 = [] := by
  rcases hSilent with ⟨gap, rest, rfl, hGap, hRest⟩
  have hIgnored : gap.all isIgnored = true := by
    rw [List.all_eq_true] at hGap ⊢
    exact fun c hMem => isIgnored_of_isBlank (hGap c hMem)
  have hNothing : (cutComment 0 false rest).1 = [] := by
    rcases hRest with rfl | ⟨comment, rfl⟩ <;> rfl
  have hStart : trimStart gap = [] := by
    rw [trimStart, ← List.append_nil gap,
      List.dropWhile_append_of_pos (List.all_eq_true.mp hGap)]
    rfl
  rw [cutComment_ignored hIgnored, hNothing, List.append_nil,
    trim, hStart]
  rfl

/- Nothing but a reminder comes of a silent line. -/
theorem run_readScriptLine_of_isSilent
    {cs : List Char}
    (hSilent : IsSilent cs)
    (line : Nat)
    (d : Draft) :
    (readScriptLine line cs).run d =
      .ok (none,
        ⟨d.issues ++ reminders line (cutComment 0 false cs).2,
          d.numbered⟩) := by
  refine run_bind_ok.mpr ⟨_, _, run_dropComment line cs d, ?_⟩
  rw [trim_cutComment_of_isSilent hSilent]
  rfl

end BranchingStory
