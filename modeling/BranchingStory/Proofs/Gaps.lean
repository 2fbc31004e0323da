import BranchingStory.Proofs.Comments
import BranchingStory.Proofs.Rereading

/-
  This file puts silent lines between the lines of a script:
  blank ones, and comments.  The logical lines of the script
  stay the same, each on the line that it has been moved to.

  Key definitions include:
    * `padded`
    * `lineAfter`
    * `ScriptLine.relined`

  Key theorems include:
    * `getElem?_padded`
    * `classifyLine_mirrors`
    * `classifyFrom_padded`
-/

------------------------------------------------------------
-- Padded Scripts
------------------------------------------------------------

namespace BranchingStory

variable (gaps : Nat → List (List Char))

/-
  Lines with gaps around them.  The gap of a number comes
  ahead of the line that as many lines of the script precede.
-/
def padded : Nat → List (List Char) → List (List Char)
  | n, [] => gaps n
  | n, l :: ls => gaps n ++ l :: padded (n + 1) ls

/- The line that a line of the script has been moved to. -/
def lineAfter : Nat → Nat
  | 0 => 0
  | n + 1 => lineAfter n + (gaps n).length + 1

/- Lines stay in their order. -/
theorem lineAfter_strictMono
    {m n : Nat}
    (hLess : m < n) :
    lineAfter gaps m < lineAfter gaps n := by
  induction n with
  | zero => cases hLess
  | succ n ih =>
      rw [lineAfter]
      rcases Nat.lt_succ_iff_lt_or_eq.mp hLess with
        hLess | rfl
      · have hBefore := ih hLess
        omega
      · omega

/- Each line stands where it has been moved to. -/
theorem getElem?_padded
    {ls : List (List Char)}
    {i : Nat}
    {l : List Char}
    (hLine : ls[i]? = some l) :
    (padded gaps 0 ls)[lineAfter gaps (i + 1) - 1]? =
      some l := by
  -- From any line on, by induction on those that remain.
  have hFrom (n k : Nat)
      (hPlace : lineAfter gaps (n + i + 1) =
        lineAfter gaps n + k + 1) :
      (padded gaps n ls)[k]? = some l := by
    induction ls generalizing n i k with
    | nil => nomatch hLine
    | cons l' ls ih =>
        rw [padded]
        cases i with
        | zero =>
            rw [Nat.add_zero, lineAfter] at hPlace
            have hGap : k = (gaps n).length := by omega
            rw [hGap, List.getElem?_append_right (Nat.le_refl _),
              Nat.sub_self]
            exact hLine
        | succ i =>
            have hSame : n + (i + 1) + 1 = n + 1 + i + 1 := by
              omega
            have hOrder :=
              lineAfter_strictMono gaps
                (show n + 1 < n + 1 + i + 1 by omega)
            rw [hSame] at hPlace
            rw [hPlace, lineAfter] at hOrder
            rw [List.getElem?_append_right (by omega)]
            have hRest :
                k - (gaps n).length =
                  k - (gaps n).length - 1 + 1 := by
              omega
            rw [hRest, List.getElem?_cons_succ]
            apply ih hLine
            rw [hPlace, lineAfter]
            omega
  apply hFrom
  rw [Nat.zero_add, lineAfter, lineAfter]
  omega

end BranchingStory

------------------------------------------------------------
-- Logical Lines
------------------------------------------------------------

namespace BranchingStory

open Reading

/- A logical line on another line. -/
def ScriptLine.relined
    (f : Nat → Nat)
    (l : ScriptLine) : ScriptLine :=
  { l with line := f l.line }

variable {f : Nat → Nat}
variable {line : Nat}

/- A comment is dropped from both lines. -/
theorem dropComment_mirrors
    (cs : List Char) :
    Mirrors f id (dropComment line cs)
      (dropComment (f line) cs) := by
  unfold dropComment
  dsimp only
  split
  · exact .report_pure rfl rfl rfl
  · exact .pure rfl

/- The header of a knot is read alike. -/
theorem classifyKnot_mirrors
    (cs : List Char) :
    Mirrors f (Option.map (ScriptLine.relined f))
      (classifyKnot line cs) (classifyKnot (f line) cs) :=
  .ite (.report_pure rfl rfl rfl)
    (.ite (.pure rfl) (.report_pure rfl rfl rfl))

/- The header of a stitch is read alike. -/
theorem classifyStitch_mirrors
    (cs : List Char) :
    Mirrors f (Option.map (ScriptLine.relined f))
      (classifyStitch line cs) (classifyStitch (f line) cs) :=
  .ite (.pure rfl) (.report_pure rfl rfl rfl)

/- The marks of a choice are read alike. -/
theorem classifyChoice_mirrors
    (cs : List Char) :
    Mirrors f (ScriptLine.relined f) (classifyChoice line cs)
      (classifyChoice (f line) cs) := by
  unfold classifyChoice
  exact .guarded rfl rfl (.pure rfl)

/- A line that begins with no mark is read alike. -/
theorem classifyWords_mirrors
    (cs : List Char) :
    Mirrors f (Option.map (ScriptLine.relined f))
      (classifyWords line cs) (classifyWords (f line) cs) :=
  .ite (.pure rfl) (.ite (.pure rfl)
    (.ite (.report_pure rfl rfl rfl) (.pure rfl)))

/- The logical line of a text is read alike. -/
theorem classifyLine_mirrors
    (cs : List Char) :
    Mirrors f (Option.map (ScriptLine.relined f))
      (classifyLine line cs) (classifyLine (f line) cs) := by
  unfold classifyLine
  split
  · exact classifyKnot_mirrors _
  · exact classifyStitch_mirrors _
  · exact (classifyChoice_mirrors _).map fun _ => rfl
  · exact (classifyChoice_mirrors _).map fun _ => rfl
  · exact .pure rfl
  · exact .pure rfl
  · exact .report_pure rfl rfl rfl
  · exact .pure rfl
  · exact .pure rfl
  · exact classifyWords_mirrors _

/- A line of a script is read alike. -/
theorem readScriptLine_mirrors
    (cs : List Char) :
    Mirrors f (Option.map (ScriptLine.relined f))
      (readScriptLine line cs) (readScriptLine (f line) cs) := by
  refine (dropComment_mirrors cs).bind fun content => ?_
  dsimp only [id_eq]
  split
  · exact .pure rfl
  · exact classifyLine_mirrors _

end BranchingStory

------------------------------------------------------------
-- Logical Lines Of Padded Scripts
------------------------------------------------------------

namespace BranchingStory

open Reading

variable {gaps : Nat → List (List Char)}

/- What a comment leaves behind is a reminder. -/
theorem isReminder_of_mem_reminders
    {line : Nat}
    {comment : Option (List Char)}
    {i : Issue}
    (hMem : i ∈ reminders line comment) :
    i.isReminder = true := by
  rcases List.mem_map.mp hMem with ⟨note, _, rfl⟩
  rfl

/-
  Silent lines ahead of others yield no logical line, by
  induction on them: only reminders are put on record.
-/
theorem classifyFrom_silent
    {α : Type}
    {f : Nat → Nat}
    {ρ : α → List ScriptLine}
    {r : Reading α}
    {gap ls : List (List Char)}
    (hSilent : ∀ l ∈ gap, IsSilent l)
    {line : Nat}
    (hMirrors :
      Mirrors f ρ r (classifyFrom (line + gap.length) ls)) :
    Mirrors f ρ r (classifyFrom line (gap ++ ls)) := by
  induction gap generalizing line with
  | nil => exact hMirrors
  | cons l gap ih =>
      rw [List.forall_mem_cons] at hSilent
      have hNext : line + (l :: gap).length =
          line + 1 + gap.length := by
        rw [List.length_cons]
        omega
      rw [hNext] at hMirrors
      intro d d' hFollows
      have hReminded :
          d.Follows f
            ⟨d'.issues ++
              reminders line (cutComment 0 false l).2,
              d'.numbered⟩ :=
        hFollows.remind fun i => isReminder_of_mem_reminders
      have hRest := ih hSilent.2 hMirrors d _ hReminded
      have hSame :
          (classifyFrom line (l :: gap ++ ls)).run d' =
            (classifyFrom (line + 1) (gap ++ ls)).run
              ⟨d'.issues ++
                reminders line (cutComment 0 false l).2,
                d'.numbered⟩ := by
        rw [List.cons_append, classifyFrom, StateT.run_bind,
          run_readScriptLine_of_isSilent hSilent.1]
        exact congrArg (StateT.run · _)
          (bind_pure (classifyFrom (line + 1) (gap ++ ls)))
      rw [hSame]
      exact hRest

/-
  The logical lines of a padded script are those of the
  script, on the lines that they have been moved to.
-/
theorem classifyFrom_padded
    (hSilent : ∀ n, ∀ l ∈ gaps n, IsSilent l)
    (n : Nat)
    (ls : List (List Char)) :
    Mirrors (lineAfter gaps)
      (List.map (ScriptLine.relined (lineAfter gaps)))
      (classifyFrom (n + 1) ls)
      (classifyFrom (lineAfter gaps n + 1)
        (padded gaps n ls)) := by
  induction ls generalizing n with
  | nil =>
      rw [padded, ← List.append_nil (gaps n)]
      exact classifyFrom_silent (hSilent n) (.pure rfl)
  | cons l ls ih =>
      rw [padded]
      apply classifyFrom_silent (hSilent n)
      have hLine :
          lineAfter gaps n + 1 + (gaps n).length =
            lineAfter gaps (n + 1) := by
        rw [lineAfter]
        omega
      rw [hLine, classifyFrom, classifyFrom]
      refine (readScriptLine_mirrors l).bind fun l? => ?_
      refine (ih (n + 1)).bind fun ls => .pure ?_
      cases l? <;> rfl

end BranchingStory
