import BranchingStory.Proofs.Joints
import BranchingStory.Proofs.Shifting
import BranchingStory.Proofs.Unsupported
import Mathlib.Data.List.DropRight
import Mathlib.Data.List.Infix

/-
  This file compares the two lines that are read from the body
  of a choice without brackets.  Both are read from the same
  text.  The output line has larger numbers, and may have more
  blanks and a divert at its end.

  Key definitions include:
    * `choiceWording`
    * `endsInEscape`
    * `IsToldAsShown`
    * `Fragment.Echo`

  Key theorems include:
    * `pieces_append_blanks`
    * `readFragments_shifts`
    * `readChoice_echo`
-/

------------------------------------------------------------
-- Texts Of Choices
------------------------------------------------------------

namespace BranchingStory

/- What follows the leading conditions, within a bound. -/
def afterConditionsWithin : Nat → List Char → List Char
  | 0, cs => cs
  | n + 1, cs =>
      match trimStart cs with
      | '{' :: rest =>
          match takeBraced? 0 false rest with
          | none => []
          | some (_, rest') => afterConditionsWithin n rest'
      | cs' => cs'

/-
  The text of a choice: its body without the conditions that
  it begins with, its divert and its tags.
-/
def choiceWording
    (body : List Char) : List Char :=
  let cs := (splitTags body).1
  let rest := afterConditionsWithin (cs.length + 1) cs
  (topLevel rest).splitArrows.headD []

/-
  Whether a text ends in a backslash that is not escaped
  itself, and that escapes what is put after it.
-/
def endsInEscape : List Char → Bool
  | [] => false
  | ['\\'] => true
  | '\\' :: _ :: rest => endsInEscape rest
  | _ :: rest => endsInEscape rest

/-
  Whether the text of a choice is told as it is shown: there is
  no glue in it, which only the output line does without, and
  no blank at its end is escaped, which only the display line
  does without.
-/
structure IsToldAsShown
    (text : List Char) : Prop where
  noGlue : ¬ glueMark <:+: text
  noEscape : endsInEscape (trim text) = true →
    blankEnd text = []

/- Whether it is can be found out. -/
instance
    (text : List Char) : Decidable (IsToldAsShown text) :=
  decidable_of_iff
    (¬ glueMark <:+: text ∧
      (endsInEscape (trim text) = true → blankEnd text = []))
    ⟨fun hBoth => ⟨hBoth.1, hBoth.2⟩,
      fun hTold => ⟨hTold.noGlue, hTold.noEscape⟩⟩

end BranchingStory

------------------------------------------------------------
-- Blanks At The End
------------------------------------------------------------

namespace BranchingStory

variable {depth : Nat}
variable {quoted : Bool}
variable {cs inner rest more : List Char}

/- A character that escapes nothing does not count. -/
theorem endsInEscape_cons
    {c : Char}
    (hOther : c ≠ '\\')
    (rest : List Char) :
    endsInEscape (c :: rest) = endsInEscape rest := by
  rw [endsInEscape]
  · exact fun hSame => absurd hSame hOther
  · exact fun _ _ hSame => absurd hSame hOther

/-
  A character that escapes nothing closes the brace, or leads
  on to what follows in the same way whatever that is.
-/
theorem takeBraced?_step
    {c : Char}
    (hOther : c ≠ '\\')
    (depth : Nat)
    (quoted : Bool) :
    (c = '}' ∧ ∀ rest, takeBraced? depth quoted (c :: rest) =
      some ([], rest)) ∨
    ∃ depth' quoted', ∀ rest,
      takeBraced? depth quoted (c :: rest) =
        (takeBraced? depth' quoted' rest).map
          (consBefore [c]) := by
  have hStep (rest : List Char) :
      takeBraced? depth quoted (c :: rest) =
        if quoted then
          (takeBraced? depth (c != '"') rest).map
            (consBefore [c])
        else if c = '"' then
          (takeBraced? depth true rest).map (consBefore [c])
        else if c = '{' then
          (takeBraced? (depth + 1) false rest).map
            (consBefore [c])
        else if c = '}' then
          if depth = 0 then some ([], rest)
          else
            (takeBraced? (depth - 1) false rest).map
              (consBefore [c])
        else
          (takeBraced? depth false rest).map
            (consBefore [c]) := by
    rw [takeBraced?.eq_def]
    split
    · next hNil => cases hNil
    · next hLast =>
        cases hLast
        exact absurd rfl hOther
    · next hMore =>
        cases hMore
        exact absurd rfl hOther
    · next hSame =>
        cases hSame
        cases depth with
        | zero => rfl
        | succ d => rfl
  simp only [hStep]
  split
  · exact Or.inr ⟨_, _, fun _ => rfl⟩
  · split
    · exact Or.inr ⟨_, _, fun _ => rfl⟩
    · split
      · exact Or.inr ⟨_, _, fun _ => rfl⟩
      · split
        · next hClose =>
          split
          · exact Or.inl ⟨hClose, fun _ => rfl⟩
          · exact Or.inr ⟨_, _, fun _ => rfl⟩
        · exact Or.inr ⟨_, _, fun _ => rfl⟩

/- What follows a closed brace has its escapes as before. -/
theorem endsInEscape_of_taken
    (hTaken :
      takeBraced? depth quoted cs = some (inner, rest)) :
    endsInEscape rest = endsInEscape cs := by
  fun_induction endsInEscape cs generalizing depth quoted inner
    with
  | case1 => cases hTaken
  | case2 => cases hTaken
  | case3 c cs ih =>
      rw [takeBraced?] at hTaken
      rcases Option.map_eq_some_iff.mp hTaken with
        ⟨⟨inner', rest'⟩, hRest, hPair⟩
      cases hPair
      exact ih hRest
  | case4 c cs hLast hMore ih =>
      have hOther := ne_backslash hLast hMore
      rcases takeBraced?_step hOther depth quoted with
        ⟨hBrace, hClose⟩ | ⟨depth', quoted', hNext⟩
      · rw [hClose] at hTaken
        cases hTaken
        rfl
      · rw [hNext] at hTaken
        rcases Option.map_eq_some_iff.mp hTaken with
          ⟨⟨inner', rest'⟩, hRest, hPair⟩
        cases hPair
        exact ih hRest

/- Blanks close no brace. -/
theorem takeBraced?_blanks
    (hBlank : ∀ c ∈ more, isBlank c = true) :
    takeBraced? depth quoted more = none := by
  induction more generalizing depth quoted with
  | nil => rfl
  | cons c more ih =>
      rw [List.forall_mem_cons] at hBlank
      have hOther : c ≠ '\\' := by
        rintro rfl
        exact absurd hBlank.1 (by decide)
      rcases takeBraced?_step hOther depth quoted with
        ⟨hBrace, hClose⟩ | ⟨depth', quoted', hNext⟩
      · rw [hBrace] at hBlank
        exact absurd hBlank.1 (by decide)
      · rw [hNext, ih hBlank.2]
        rfl

/- Blanks after a text stand after what follows its braces. -/
theorem takeBraced?_append_blanks
    (hBlank : ∀ c ∈ more, isBlank c = true)
    (hEscape : endsInEscape cs = false) :
    takeBraced? depth quoted (cs ++ more) =
      (takeBraced? depth quoted cs).map fun p =>
        (p.1, p.2 ++ more) := by
  have hMap
      (cs : List Char)
      (found : Option (List Char × List Char)) :
      (found.map fun p => (p.1, p.2 ++ more)).map
          (consBefore cs) =
        (found.map (consBefore cs)).map fun p =>
          (p.1, p.2 ++ more) := by
    cases found <;> rfl
  fun_induction endsInEscape cs generalizing depth quoted with
  | case1 => exact takeBraced?_blanks hBlank
  | case2 => cases hEscape
  | case3 c cs ih =>
      rw [List.cons_append, List.cons_append, takeBraced?,
        takeBraced?, ih hEscape, hMap]
  | case4 c cs hLast hMore ih =>
      have hOther := ne_backslash hLast hMore
      rcases takeBraced?_step hOther depth quoted with
        ⟨hBrace, hClose⟩ | ⟨depth', quoted', hNext⟩
      · rw [List.cons_append, hClose, hClose]
        rfl
      · rw [List.cons_append, hNext, hNext, ih hEscape, hMap]

/- Blanks are characters of their own. -/
theorem piecesWithin_blanks
    (hBlank : ∀ c ∈ more, isBlank c = true)
    {m : Nat}
    (hBound : more.length ≤ m) :
    piecesWithin m more = more.map .char := by
  induction more generalizing m with
  | nil => cases m <;> rfl
  | cons c more ih =>
      rw [List.forall_mem_cons] at hBlank
      cases m with
      | zero => cases hBound
      | succ m =>
          have hRest := ih hBlank.2 (Nat.le_of_succ_le_succ hBound)
          rw [piecesWithin, hRest, List.map_cons]
          · rintro _ _ rfl
            exact absurd hBlank.1 (by decide)
          · rintro rfl
            exact absurd hBlank.1 (by decide)
          · rintro rfl
            exact absurd hBlank.1 (by decide)

/-
  Blanks after a text are pieces of their own, or belong to a
  brace that is not closed.
-/
theorem pieces_append_blanks
    (hBlank : ∀ c ∈ more, isBlank c = true)
    (hEscape : endsInEscape cs = false) :
    ∃ added, (added = more ∨ added = []) ∧
      pieces (cs ++ more) = pieces cs ++ added.map .char := by
  have hNext {p : Piece} {ps qs : List Piece}
      (hRest : ∃ added, (added = more ∨ added = []) ∧
        ps = qs ++ added.map .char) :
      ∃ added, (added = more ∨ added = []) ∧
        p :: ps = p :: qs ++ added.map .char := by
    rcases hRest with ⟨added, hAdded, rfl⟩
    exact ⟨added, hAdded, rfl⟩
  have hSome {c : Char} {cs : List Char}
      (m : Nat)
      (hBound : (c :: cs).length ≤ m) :
      ∃ m', m = m' + 1 :=
    Nat.exists_eq_succ_of_ne_zero
      (Nat.ne_of_gt (Nat.lt_of_lt_of_le (Nat.succ_pos _) hBound))
  have hWithin (n m : Nat)
      (hFirst : cs.length ≤ n)
      (hSecond : (cs ++ more).length ≤ m) :
      ∃ added, (added = more ∨ added = []) ∧
        piecesWithin m (cs ++ more) =
          piecesWithin n cs ++ added.map .char := by
    fun_induction piecesWithin n cs generalizing m with
    | case1 cs =>
        cases List.length_eq_zero_iff.mp (Nat.le_zero.mp hFirst)
        exact ⟨more, Or.inl rfl,
          piecesWithin_blanks hBlank hSecond⟩
    | case2 n =>
        exact ⟨more, Or.inl rfl,
          piecesWithin_blanks hBlank hSecond⟩
    | case3 n c rest ih =>
        rcases hSome m hSecond with ⟨m, rfl⟩
        simp only [List.cons_append, List.length_cons]
          at hFirst hSecond
        exact hNext (ih hEscape m (by omega) (by omega))
    | case4 n rest ih =>
        rcases hSome m hSecond with ⟨m, rfl⟩
        rw [endsInEscape_cons (by decide)] at hEscape
        exact hNext (ih hEscape m
          (Nat.le_of_succ_le_succ hFirst)
          (Nat.le_of_succ_le_succ hSecond))
    | case5 n rest hNone =>
        rcases hSome m hSecond with ⟨m, rfl⟩
        rw [endsInEscape_cons (by decide)] at hEscape
        refine ⟨[], Or.inr rfl, ?_⟩
        rw [List.cons_append, piecesWithin,
          takeBraced?_append_blanks hBlank hEscape, hNone]
        rfl
    | case6 n rest inner rest' hTaken ih =>
        rcases hSome m hSecond with ⟨m, rfl⟩
        rw [endsInEscape_cons (by decide)] at hEscape
        have hLength := length_takeBraced? hTaken
        have hEscape' := endsInEscape_of_taken hTaken
        simp only [List.cons_append, List.length_cons,
          List.length_append] at hFirst hSecond
        rw [List.cons_append, piecesWithin,
          takeBraced?_append_blanks hBlank hEscape, hTaken]
        refine hNext (ih (hEscape'.trans hEscape) m (by omega) ?_)
        rw [List.length_append]
        omega
    | case7 n c rest hEscaped hClose hOpen ih =>
        rcases hSome m hSecond with ⟨m, rfl⟩
        have hOther : c ≠ '\\' := by
          rintro rfl
          cases rest with
          | nil => cases hEscape
          | cons c rest => exact hEscaped c rest rfl rfl
        rw [endsInEscape_cons hOther] at hEscape
        rw [List.cons_append, piecesWithin]
        · exact hNext (ih hEscape m
            (Nat.le_of_succ_le_succ hFirst)
            (Nat.le_of_succ_le_succ hSecond))
        · exact fun _ _ hSame => absurd hSame hOther
        · exact hClose
        · exact hOpen
  exact hWithin cs.length (cs ++ more).length (Nat.le_refl _)
    (Nat.le_refl _)

end BranchingStory

------------------------------------------------------------
-- Content With Blanks After It
------------------------------------------------------------

namespace BranchingStory

open Reading

variable {k line : Nat}
variable {cs more : List Char}

/- Content is read from the pieces of its text. -/
theorem readFragments_eq
    (line : Nat)
    (cs : List Char) :
    readFragments line cs =
      readPieces line
        (readBraced line
          (readFragmentsWithin line (cs.length - 1)))
        [] (pieces cs) := by
  cases cs with
  | nil => rfl
  | cons c cs => rfl

/-
  The same content is read again with larger numbers, where
  blanks after it belong to the text at its end.
-/
theorem readFragments_shifts
    (hBlank : ∀ c ∈ more, isBlank c = true)
    (hEscape : endsInEscape cs = false ∨ more = []) :
    Shifts k
      (fun fs fs' => ∃ body last added,
        (∀ c ∈ added, isBlank c = true) ∧
        fs = body ++ textFragment last ∧
        fs' = shiftAll k body ++ textFragment (last ++ added))
      (readFragments line cs)
      (readFragments line (cs ++ more)) := by
  have hPieces :
      ∃ added : List Char, (∀ c ∈ added, isBlank c = true) ∧
        pieces (cs ++ more) = pieces cs ++ added.map .char := by
    rcases hEscape with hEscape | rfl
    · rcases pieces_append_blanks hBlank hEscape with
        ⟨added, rfl | rfl, hSame⟩
      · exact ⟨added, hBlank, hSame⟩
      · exact ⟨[], by simp, hSame⟩
    · refine ⟨[], by simp, ?_⟩
      rw [List.append_nil, List.map_nil, List.append_nil]
  rcases hPieces with ⟨added, hAdded, hPieces⟩
  rw [readFragments_eq, readFragments_eq, hPieces]
  have hBraced : ∀ inner, .braced inner ∈ pieces cs →
      Shifts k (fun f f' => f' = f.map (Fragment.shift k))
        (readBraced line
          (readFragmentsWithin line (cs.length - 1)) inner)
        (readBraced line
          (readFragmentsWithin line
            ((cs ++ more).length - 1)) inner) := by
    intro inner hMem
    have hShorter := length_lt_of_braced hMem
    refine readBraced_shifts fun cs' hLength =>
      readFragmentsWithin_shifts (by omega) ?_
    rw [List.length_append]
    omega
  have hShifts := readPieces_shifts line added [] hBraced
  intro d d' hAhead fs e hRun fs' e' hRun'
  rcases hShifts d d' hAhead fs e hRun fs' e' hRun' with
    ⟨⟨body, last, added', rfl | rfl, hSame, hSame'⟩, hAhead'⟩
  · exact ⟨⟨body, last, added', hAdded, hSame, hSame'⟩,
      hAhead'⟩
  · exact ⟨⟨body, last, [], by simp, hSame, hSame'⟩, hAhead'⟩

end BranchingStory

------------------------------------------------------------
-- Parts Of A Choice
------------------------------------------------------------

namespace BranchingStory

open Reading
open scoped List

variable {line : Nat}
variable {cs body : List Char}

/- What follows the conditions does not depend on them. -/
theorem readConditions_rest
    (line : Nat)
    (cs : List Char) :
    (readConditions line cs).Ensures fun _ r _ =>
      r.2 = afterConditionsWithin (cs.length + 1) cs := by
  have hWithin (n : Nat) (cs : List Char) :
      (readConditionsWithin line n cs).Ensures fun _ r _ =>
        r.2 = afterConditionsWithin n cs := by
    induction n generalizing cs with
    | zero =>
        intro d r d' hRun
        rcases run_pure_ok.mp hRun with ⟨rfl, rfl⟩
        rfl
    | succ n ih =>
        intro d r d' hRun
        rw [readConditionsWithin] at hRun
        split at hRun
        · next rest hBrace =>
            split at hRun
            · next hNone =>
                rcases run_bind_ok.mp hRun with ⟨_, _, _, hRun⟩
                rcases run_pure_ok.mp hRun with ⟨rfl, rfl⟩
                rw [afterConditionsWithin]
                simp only [hBrace, hNone]
            · next inner rest' hTaken =>
                rcases run_bind_ok.mp hRun with
                  ⟨e, d₁, _, hRun⟩
                rcases run_bind_ok.mp hRun with
                  ⟨r', d₂, hRest, hRun⟩
                rcases run_pure_ok.mp hRun with ⟨rfl, rfl⟩
                rw [afterConditionsWithin]
                simp only [hBrace, hTaken]
                exact ih rest' d₁ r' _ hRest
        · next hOther =>
            rcases run_pure_ok.mp hRun with ⟨rfl, rfl⟩
            rw [afterConditionsWithin]
            split
            · next rest hBrace => exact absurd hBrace (hOther rest)
            · rfl
  exact hWithin (cs.length + 1) cs

/- What follows the conditions begins with no blank. -/
theorem trimStart_afterConditionsWithin
    {n : Nat}
    (hBound : cs.length < n) :
    trimStart (afterConditionsWithin n cs) =
      afterConditionsWithin n cs := by
  induction n generalizing cs with
  | zero => cases hBound
  | succ n ih =>
      have hStart := (trimStart_sublist cs).length_le
      rw [afterConditionsWithin]
      split
      · next rest hBrace =>
          rw [hBrace, List.length_cons] at hStart
          split
          · rfl
          · next inner rest' hTaken =>
              have hLength := length_takeBraced? hTaken
              exact ih (by omega)
      · exact List.dropWhile_idempotent isBlank cs

/- What follows the conditions is a part of the text. -/
theorem afterConditionsWithin_sublist
    (n : Nat)
    (cs : List Char) :
    afterConditionsWithin n cs <+ cs := by
  induction n generalizing cs with
  | zero => exact List.Sublist.refl _
  | succ n ih =>
      have hStart := trimStart_sublist cs
      rw [afterConditionsWithin]
      split
      · next rest hBrace =>
          rw [hBrace] at hStart
          split
          · exact List.nil_sublist _
          · next inner rest' hTaken =>
              have hParts := sublist_of_takeBraced? hTaken
              exact (ih rest').trans
                ((List.sublist_append_right _ _).trans
                  (hParts.trans
                    ((List.sublist_cons_self _ _).trans
                      hStart)))
      · exact hStart

/- The text of a choice is a part of its body. -/
theorem choiceWording_sublist
    (body : List Char) :
    choiceWording body <+ body := by
  have hParts :
      choiceWording body <+
        afterConditionsWithin ((splitTags body).1.length + 1)
          (splitTags body).1 := by
    unfold choiceWording
    dsimp only
    generalize afterConditionsWithin _ _ = rest
    rcases List.exists_cons_of_ne_nil
      (topLevel rest).splitArrows_ne_nil with
      ⟨part, parts, hSplit⟩
    have hPart := Marked.splitArrows_sublist (topLevel rest)
    rw [chars_topLevel, hSplit] at hPart
    rw [hSplit]
    exact (List.sublist_append_left part _).trans hPart
  exact hParts.trans
    ((afterConditionsWithin_sublist _ _).trans
      (splitTags_sublist body))

/- The text ahead of all arrows is a beginning. -/
theorem Marked.headD_splitArrows_isPrefix
    (ms : Marked) :
    ms.splitArrows.headD [] <+: ms.chars := by
  fun_induction splitArrows ms with
  | case1 => exact List.nil_prefix
  | case2 => exact List.nil_prefix
  | case3 c isOpen rest _ ih =>
      cases hSplit : splitArrows rest with
      | nil => exact absurd hSplit (splitArrows_ne_nil rest)
      | cons part parts =>
          rw [hSplit] at ih
          exact (List.prefix_cons_inj c).mpr ih

/- The text of a choice begins with no blank. -/
theorem blankStart_choiceWording
    (body : List Char) :
    blankStart (choiceWording body) = [] := by
  unfold choiceWording
  dsimp only
  have hTrimmed :=
    trimStart_afterConditionsWithin
      (Nat.lt_succ_self (splitTags body).1.length)
  generalize afterConditionsWithin _ _ = rest at hTrimmed ⊢
  have hPrefix := (topLevel rest).headD_splitArrows_isPrefix
  rw [chars_topLevel] at hPrefix
  generalize (topLevel rest).splitArrows.headD [] = text
    at hPrefix
  cases text with
  | nil => rfl
  | cons c text =>
      rcases hPrefix with ⟨after, rfl⟩
      rw [blankStart, List.takeWhile_cons_of_neg]
      intro hBlank
      rw [List.cons_append, trimStart,
        List.dropWhile_cons_of_pos hBlank] at hTrimmed
      have hLength :=
        (List.dropWhile_suffix isBlank
          (l := text ++ after)).length_le
      rw [hTrimmed, List.length_cons] at hLength
      omega

/- A text without arrows is not split. -/
theorem Marked.chars_of_splitArrows
    {ms : Marked}
    {part : List Char}
    (hSplit : ms.splitArrows = [part]) :
    ms.chars = part := by
  fun_induction splitArrows ms generalizing part with
  | case1 =>
      cases hSplit
      rfl
  | case2 isOpen rest _ =>
      exact absurd (List.cons.inj hSplit).2
        (splitArrows_ne_nil rest)
  | case3 c isOpen rest _ ih =>
      cases hRest : splitArrows rest with
      | nil => exact absurd hRest (splitArrows_ne_nil rest)
      | cons first parts =>
          rw [hRest] at hSplit
          cases hSplit
          exact congrArg (c :: ·) (ih hRest)

/- An arrow, or a character ahead of the first arrow. -/
theorem Marked.splitArrows_cons
    (m : Char × Bool)
    (ms : Marked) :
    (∃ parts, splitArrows (m :: ms) = [] :: parts) ∨
      splitArrows (m :: ms) = consToFirst m.1 ms.splitArrows := by
  generalize hWhole : m :: ms = whole
  fun_cases splitArrows whole with
  | case1 => cases hWhole
  | case2 isOpen rest => exact Or.inl ⟨_, rfl⟩
  | case3 c isOpen rest =>
      cases hWhole
      exact Or.inr rfl

/- No arrow stands after a backslash that escapes it. -/
theorem endsInEscape_of_splitArrows
    {depth : Int}
    {quoted : Bool}
    {part next : List Char}
    {parts : List (List Char)}
    (hSplit :
      Marked.splitArrows (topLevelFrom depth quoted cs) =
        part :: next :: parts) :
    endsInEscape part = false := by
  have hCons {c : Char} {isOpen : Bool} {ms : Marked}
      {part next : List Char} {parts : List (List Char)}
      (hOther : c ≠ '\\')
      (hRest : ∀ {part next parts},
        ms.splitArrows = part :: next :: parts →
          endsInEscape part = false)
      (hSplit : Marked.splitArrows ((c, isOpen) :: ms) =
        part :: next :: parts) :
      endsInEscape part = false := by
    rcases Marked.splitArrows_cons (c, isOpen) ms with
      ⟨_, hArrow⟩ | hLater
    · rw [hArrow] at hSplit
      cases hSplit
      rfl
    · rw [hLater] at hSplit
      rcases hMore : ms.splitArrows with
        _ | ⟨first, _ | ⟨second, rest⟩⟩
      · exact absurd hMore (Marked.splitArrows_ne_nil ms)
      · rw [hMore] at hSplit
        cases hSplit
      · rw [hMore] at hSplit
        cases hSplit
        rw [endsInEscape_cons hOther]
        exact hRest hMore
  fun_induction topLevelFrom depth quoted cs
    generalizing part next parts with
  | case1 => cases hSplit
  | case2 => cases hSplit
  | case3 depth quoted c rest ih =>
      have hEscaped :
          Marked.splitArrows (('\\', false) :: (c, false) ::
              topLevelFrom depth quoted rest) =
            consToFirst '\\' (consToFirst c
              (Marked.splitArrows
                (topLevelFrom depth quoted rest))) := by
        rw [Marked.splitArrows, Marked.splitArrows]
        · intro _ _ _ _ hOpen
          cases hOpen
        · intro _ _ _ hDash
          exact absurd hDash (by decide)
      rw [hEscaped] at hSplit
      rcases hMore :
          Marked.splitArrows (topLevelFrom depth quoted rest)
        with _ | ⟨first, _ | ⟨second, others⟩⟩
      · exact absurd hMore (Marked.splitArrows_ne_nil _)
      · rw [hMore] at hSplit
        cases hSplit
      · have hFirst := ih hMore
        rw [hMore] at hSplit
        cases hSplit
        exact hFirst
  | _ =>
      have hOther := ne_backslash (by assumption)
        (by assumption)
      exact hCons hOther (by assumption) hSplit

/- The text ahead of a divert, and whether one follows. -/
theorem readDivert_text
    (line : Nat)
    (cs : List Char) :
    (readDivert line cs).Ensures fun _ r _ =>
      r.1 = (topLevel cs).splitArrows.headD [] ∧
        (endsInEscape r.1 = true → r.2 = none) := by
  intro d r d' hRun
  unfold readDivert at hRun
  split at hRun
  · next content rest hSplit =>
      have hEscape := endsInEscape_of_splitArrows hSplit
      rcases Idles.run_guarded (Idles.report _ _) hRun with
        ⟨d₁, _, _, hRest⟩
      rcases run_pure_ok.mp hRest with ⟨rfl, rfl⟩
      refine ⟨by rw [hSplit]; rfl, fun hEnds => ?_⟩
      rw [hEscape] at hEnds
      cases hEnds
  · next content _ _ _ hSplit =>
      rcases run_bind_ok.mp hRun with ⟨_, _, _, hRun⟩
      rcases run_pure_ok.mp hRun with ⟨rfl, rfl⟩
      exact ⟨by rw [hSplit]; rfl, fun _ => rfl⟩
  · next hOne hMore =>
      rcases run_pure_ok.mp hRun with ⟨rfl, rfl⟩
      refine ⟨?_, fun _ => rfl⟩
      rcases hSplit : (topLevel cs).splitArrows with
        _ | ⟨part, _ | ⟨next, _ | ⟨third, parts⟩⟩⟩
      · exact absurd hSplit (Marked.splitArrows_ne_nil _)
      · have hWhole := Marked.chars_of_splitArrows hSplit
        rw [chars_topLevel] at hWhole
        exact hWhole
      · exact absurd hSplit (hOne part next)
      · exact absurd hSplit (hMore part next third parts)

/- A text without square brackets is not split at any. -/
theorem splitBrackets_none
    (hOpen : '[' ∉ cs)
    (hClose : ']' ∉ cs)
    (line : Nat) :
    splitBrackets line cs = pure (cs, [], []) := by
  have hNone {mark : Char} (hMark : mark ∉ cs) :
      (topLevel cs).countOpen mark = 0 := by
    rw [Marked.countOpen, List.countP_eq_zero]
    intro m hMem hBoth
    rw [Bool.and_eq_true, beq_iff_eq] at hBoth
    have hChar : m.1 ∈ (topLevel cs).chars :=
      List.mem_map_of_mem hMem
    rw [chars_topLevel, hBoth.2] at hChar
    exact hMark hChar
  unfold splitBrackets
  simp only [hNone hOpen, hNone hClose, and_self, if_true]

/- A text without glue is left as it is. -/
theorem dropGlue_of_not_infix
    (hGlue : ¬ glueMark <:+: cs) :
    dropGlue cs = cs := by
  fun_induction dropGlue cs with
  | case1 => rfl
  | case2 rest => exact absurd ⟨[], rest, rfl⟩ hGlue
  | case3 c rest _ ih =>
      rw [ih fun hInfix =>
        hGlue (hInfix.trans (List.suffix_cons c rest).isInfix)]

end BranchingStory

------------------------------------------------------------
-- Echoes
------------------------------------------------------------

namespace BranchingStory

open Reading

/-
  Whether fragments echo others: they are the same with larger
  numbers, but for blanks that the text at their end goes on
  with, and a divert after it.
-/
def Fragment.Echo
    (k : Nat)
    (fs fs' : List Fragment) : Prop :=
  ∃ body last blanks tail,
    fs = body ++ textFragment last ∧
    fs' = shiftAll k body ++
      textFragment (last ++ blanks) ++ tail ∧
    (∀ c ∈ blanks, isBlank c = true) ∧
    ∀ f ∈ tail, ∃ d, f = .divert d

/- What names mean changes nothing about an echo. -/
theorem Fragment.Echo.resolve
    {k : Nat}
    {fs fs' : List Fragment}
    (hEcho : Fragment.Echo k fs fs')
    (o : Outline)
    (knot : String) :
    Fragment.Echo k (Fragment.resolveAll o knot fs)
      (Fragment.resolveAll o knot fs') := by
  have hAppend (fs gs : List Fragment) :
      resolveAll o knot (fs ++ gs) =
        resolveAll o knot fs ++ resolveAll o knot gs := by
    induction fs with
    | nil => simp [resolveAll]
    | cons f fs ih => simp [resolveAll, ih]
  have hText (cs : List Char) :
      resolveAll o knot (textFragment cs) =
        textFragment cs := by
    cases cs with
    | nil => simp [textFragment, resolveAll]
    | cons c cs =>
        simp [textFragment, resolveAll, Fragment.resolve]
  rcases hEcho with
    ⟨body, last, blanks, tail, rfl, rfl, hBlanks, hTail⟩
  refine ⟨resolveAll o knot body, last, blanks,
    resolveAll o knot tail, ?_, ?_, hBlanks, ?_⟩
  · rw [hAppend, hText]
  · rw [hAppend, hAppend, hText, shiftAll_resolveAll]
  · clear hBlanks
    induction tail with
    | nil => simp [resolveAll]
    | cons f tail ih =>
        rw [List.forall_mem_cons] at hTail
        rcases hTail with ⟨⟨d, rfl⟩, hRest⟩
        rw [resolveAll, Fragment.resolve, List.forall_mem_cons]
        exact ⟨⟨_, rfl⟩, ih hRest⟩

/- The divert to a target is nothing but a divert. -/
theorem divert_of_mem_divertTo
    {line : Nat}
    {target : Option (List Char)}
    {f : Fragment}
    (hMem : f ∈ divertTo line target) :
    ∃ d, f = .divert d := by
  unfold divertTo at hMem
  split at hMem
  · exact ⟨_, List.mem_singleton.mp hMem⟩
  · cases hMem

/-
  The output line of a choice without brackets echoes its
  display line, if its text is told as it is shown.
-/
theorem readChoice_echo
    {line : Nat}
    {sticky : Bool}
    {body : List Char}
    {d d' : Draft}
    {c : Choice}
    (hOpen : '[' ∉ body)
    (hClose : ']' ∉ body)
    (hTold : IsToldAsShown (choiceWording body))
    (hRead : (readChoice line sticky body).run d = .ok (c, d')) :
    ∃ k, Fragment.Echo k c.display.fragments
      c.output.fragments := by
  unfold readChoice at hRead
  rcases run_bind_ok.mp hRead with
    ⟨⟨conditions, rest⟩, d₁, hConditions, hRead⟩
  rcases run_bind_ok.mp hRead with
    ⟨⟨text, target⟩, d₂, hDivert, hRead⟩
  have hRest := readConditions_rest line _ _ _ _ hConditions
  rcases readDivert_text line _ _ _ _ hDivert with
    ⟨hText, hEscaped⟩
  simp only at hRest hText hEscaped
  rw [hRest] at hText
  change text = choiceWording body at hText
  -- The text is not split, as no bracket is left in it.
  have hPart := choiceWording_sublist body
  rw [← hText] at hTold hPart
  have hBlankStart := blankStart_choiceWording body
  rw [← hText] at hBlankStart
  rcases run_bind_ok.mp hRead with ⟨parts, d₃, hSplit, hRead⟩
  rw [splitBrackets_none (fun hMem => hOpen (hPart.subset hMem))
    (fun hMem => hClose (hPart.subset hMem))] at hSplit
  rcases run_pure_ok.mp hSplit with ⟨rfl, rfl⟩
  rcases run_bind_ok.mp hRead with ⟨shown, d₄, hShown, hRead⟩
  rcases Idles.run_guarded (Idles.report _ _) hRead with
    ⟨d₅, _, hSame, hRead⟩
  rcases run_bind_ok.mp hRead with ⟨output, d₆, hGlued, hRead⟩
  rcases run_pure_ok.mp hRead with ⟨rfl, rfl⟩
  unfold readGlued at hGlued
  rcases run_bind_ok.mp hGlued with ⟨told, d₇, hOutput, hGlued⟩
  rcases run_pure_ok.mp hGlued with ⟨rfl, rfl⟩
  -- Both lines are read from it, one after the other.
  have hWhole := blankStart_append_trim text
  rw [hBlankStart, List.nil_append] at hWhole
  rw [List.append_nil] at hShown
  rw [List.append_nil, dropGlue_of_not_infix hTold.noGlue,
    ← hWhole, List.append_assoc] at hOutput
  have hBlank :
      ∀ c ∈ blankEnd text ++
        if hasTarget target then [' '] else [],
          isBlank c = true := by
    intro c hMem
    rcases List.mem_append.mp hMem with hEnd | hGap
    · exact isBlank_around (List.mem_append_right _ hEnd)
    · split at hGap
      · cases List.mem_singleton.mp hGap
        decide
      · cases hGap
  -- A blank is escaped only where no other blank comes after.
  have hEscape :
      endsInEscape (trim text) = false ∨
        (blankEnd text ++
          if hasTarget target then [' '] else []) = [] := by
    cases hEnds : endsInEscape (trim text) with
    | false => exact Or.inl rfl
    | true =>
        have hNone := hTold.noEscape hEnds
        rw [hNone, List.append_nil] at hWhole
        rw [hWhole] at hEnds
        rw [hNone, hEscaped hEnds]
        exact Or.inr rfl
  have hAdds :=
    (readFragments_writes line _ d₂ shown d₄ hShown).1.precedes
  have hAhead :
      d₅.numbered =
        d₂.numbered + (d₄.numbered - d₂.numbered) := by
    have hLess := hAdds.numbered
    omega
  rcases
      readFragments_shifts hBlank hEscape d₂ d₅ hAhead shown d₄
        hShown told d₇ hOutput with
    ⟨⟨inner, last, blanks, hBlanks, hShownAs, hToldAs⟩, _⟩
  refine ⟨d₄.numbered - d₂.numbered, inner, last, blanks,
    divertTo line target, hShownAs, ?_, hBlanks,
    fun f => divert_of_mem_divertTo⟩
  rw [← hToldAs]

end BranchingStory
