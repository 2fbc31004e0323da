import BranchingStory.Outline.Builder
import BranchingStory.Proofs.Derivations
import BranchingStory.Proofs.Numbering

/-
  This file shows where the one fault that ends the building
  of an outline comes from.  What is read as an expression is
  always a part of the text of a line, so that a line that
  cannot be added has more digits than a number may have.

  Key definitions include:
    * `HasLongNumber`
    * `Reading.GivesUpIf`

  Key theorems include:
    * `readExpr?_givesUp`
    * `readFragments_givesUp`
    * `readLine_givesUp`
    * `readChoice_givesUp`
    * `Builder.add_givesUp`
    * `buildOutline_givesUp`
-/

------------------------------------------------------------
-- Texts With Long Numbers
------------------------------------------------------------

namespace BranchingStory

open scoped List

/- Whether a text has more digits than a number may have. -/
def HasLongNumber
    (cs : List Char) : Prop :=
  maxDigits < cs.countP isDigit

/- What a part of a text has, the text has. -/
theorem HasLongNumber.mono
    {cs ds : List Char}
    (hLong : HasLongNumber cs)
    (hPart : cs <+ ds) :
    HasLongNumber ds :=
  Nat.lt_of_lt_of_le hLong (hPart.countP_le)

/- A text has the characters of each of its tokens. -/
theorem Spelled.chars_sublist
    {ts : List Token}
    {cs : List Char}
    (hSpelled : Spelled ts cs)
    {t : Token}
    (hMem : t ∈ ts) :
    t.chars <+ cs := by
  induction hSpelled with
  | nil => cases hMem
  | @cons gap cs s ts _ _ _ ih =>
      apply List.Sublist.trans _ (List.sublist_append_right _ _)
      rcases List.mem_cons.mp hMem with rfl | hMem
      · exact List.sublist_append_left _ _
      · exact (ih hMem).trans (List.sublist_append_right _ _)

/- A text that has too long an integer has so many digits. -/
theorem hasLongNumber_of_isLong
    {cs : List Char}
    {ts : List Token}
    (hTokens : tokens cs = .ok ts)
    {t : Token}
    (hMem : t ∈ ts)
    (hLong : t.isLong = true) :
    HasLongNumber cs := by
  have hSpelled := spelled_of_tokens hTokens
  have hWritten := hSpelled.isWritten t hMem
  refine HasLongNumber.mono ?_ (hSpelled.chars_sublist hMem)
  cases t with
  | number s =>
      simp only [Token.isLong, Bool.and_eq_true,
        Bool.not_eq_true', decide_eq_true_eq] at hLong
      have hPoint : '.' ∉ s.toList := by
        rw [← List.contains_iff_mem, hLong.1]
        exact Bool.false_ne_true
      have hRun := IsDotted.isRun hWritten hPoint
      have hDigits :
          s.toList.countP isDigit = s.toList.length :=
        List.countP_eq_length.mpr hRun.2
      rw [HasLongNumber, Token.chars, Token.text, hDigits]
      exact hLong.2
  | quoted s => cases hLong
  | arrow => cases hLong
  | symbol s => cases hLong
  | name s => cases hLong

/-
  Only a text with too many digits is refused for an integer
  that is too long.
-/
theorem hasLongNumber_of_ofText
    {line n : Nat}
    {cs : List Char}
    (hRead : Expr.ofText line cs = .error (.longNumber n)) :
    HasLongNumber cs := by
  cases hTokens : tokens cs with
  | error fault =>
      rw [Expr.ofText, hTokens] at hRead
      cases hRead
      have hWithin (n : Nat) (cs : List Char) (m : Nat) :
          tokensWithin n cs ≠ .error (.longNumber m) := by
        intro hFault
        induction n generalizing cs with
        | zero => cases hFault
        | succ n ih =>
            rw [tokensWithin] at hFault
            split at hFault
            · cases hFault
            · split at hFault
              · cases hFault
              · rcases except_bind_error.mp hFault with
                  hRest | ⟨ts, _, hPure⟩
                · exact ih _ hRest
                · cases hPure
      exact absurd hTokens (hWithin _ cs n)
  | ok ts =>
      rw [ofText_of_tokens hTokens] at hRead
      rcases
          isLong_of_ofTokens
            (spelled_of_tokens hTokens).isWritten hRead with
        ⟨t, hMem, hLong⟩
      exact hasLongNumber_of_isLong hTokens hMem hLong

end BranchingStory

------------------------------------------------------------
-- Steps That Give Up
------------------------------------------------------------

namespace BranchingStory

namespace Reading

variable {α β : Type}

/-
  A step that is followed by another gives up if and only if
  one of them does.
-/
theorem run_bind_error
    {r : Reading α}
    {f : α → Reading β}
    {d : Draft}
    {n : LongNumber} :
    (r >>= f).run d = .error n ↔
      r.run d = .error n ∨
        ∃ a d', r.run d = .ok (a, d') ∧
          (f a).run d' = .error n := by
  rw [StateT.run_bind, except_bind_error]
  simp only [Prod.exists]

/- Whether a step gives up under a condition only. -/
def GivesUpIf
    (r : Reading α)
    (P : Prop) : Prop :=
  ∀ d n, r.run d = .error n → P

namespace GivesUpIf

variable {P : Prop}

theorem pure
    (a : α) :
    (Pure.pure a : Reading α).GivesUpIf P := by
  intro d n hRun
  rw [StateT.run_pure] at hRun
  cases hRun

theorem report
    (cause : Cause)
    (line : Nat) :
    (Reading.report cause line).GivesUpIf P := by
  intro d n hRun
  rw [run_report] at hRun
  cases hRun

theorem nextNumber :
    Reading.nextNumber.GivesUpIf P := by
  intro d n hRun
  rw [run_nextNumber] at hRun
  cases hRun

/- The second of two steps may rest on what the first ensures. -/
theorem bind_ensures
    {Q : α → Prop}
    {r : Reading α}
    {f : α → Reading β}
    (hFirst : r.GivesUpIf P)
    (hValue : r.Idles Q)
    (hSecond : ∀ a, Q a → (f a).GivesUpIf P) :
    (r >>= f).GivesUpIf P := by
  intro d n hRun
  rcases run_bind_error.mp hRun with
    hError | ⟨a, d', hRunFirst, hError⟩
  · exact hFirst d n hError
  · exact hSecond a (hValue d a d' hRunFirst).2.2 d' n hError

theorem bind
    {r : Reading α}
    {f : α → Reading β}
    (hFirst : r.GivesUpIf P)
    (hSecond : ∀ a, (f a).GivesUpIf P) :
    (r >>= f).GivesUpIf P := by
  intro d n hRun
  rcases run_bind_error.mp hRun with
    hError | ⟨a, d', _, hError⟩
  · exact hFirst d n hError
  · exact hSecond a d' n hError

theorem report_pure
    (cause : Cause)
    (line : Nat)
    (a : α) :
    (Reading.report cause line >>= fun _ =>
      Pure.pure a).GivesUpIf P :=
  bind (report cause line) fun _ => pure a

/- A report that may be left out. -/
theorem guarded
    {c : Prop}
    [Decidable c]
    {cause : Cause}
    {line : Nat}
    {f : Unit → Reading β}
    (hSecond : (f ()).GivesUpIf P) :
    (if c then Reading.report cause line >>= f
      else f ()).GivesUpIf P := by
  split
  · exact bind (report cause line) fun _ => hSecond
  · exact hSecond

theorem mono
    {P' : Prop}
    {r : Reading α}
    (hGives : r.GivesUpIf P)
    (hWeaker : P → P') :
    r.GivesUpIf P' :=
  fun d n hRun => hWeaker (hGives d n hRun)

/- Steps for each of several values. -/
theorem mapM
    {f : α → Reading β}
    {xs : List α}
    (hEach : ∀ x ∈ xs, (f x).GivesUpIf P) :
    (xs.mapM f).GivesUpIf P := by
  induction xs with
  | nil =>
      rw [List.mapM_nil]
      exact pure []
  | cons x xs ih =>
      rw [List.forall_mem_cons] at hEach
      rw [List.mapM_cons]
      exact bind hEach.1 fun y =>
        bind (ih hEach.2) fun ys => pure (y :: ys)

end GivesUpIf

end Reading

end BranchingStory

------------------------------------------------------------
-- Content
------------------------------------------------------------

namespace BranchingStory

open Reading
open scoped List

/- An expression that cannot be read for its length. -/
theorem readExpr?_givesUp
    (line : Nat)
    (cs : List Char) :
    (readExpr? line cs).GivesUpIf (HasLongNumber cs) := by
  unfold readExpr?
  split
  · exact GivesUpIf.pure _
  · next digits hRead =>
      exact fun d n _ => hasLongNumber_of_ofText hRead
  · exact GivesUpIf.report_pure _ _ _

/- Reading a divert never gives up. -/
theorem readDivert_givesUp
    {P : Prop}
    (line : Nat)
    (cs : List Char) :
    (readDivert line cs).GivesUpIf P := by
  unfold readDivert
  split
  · exact GivesUpIf.guarded (GivesUpIf.pure _)
  · exact GivesUpIf.report_pure _ _ _
  · exact GivesUpIf.pure _

variable {content : ContentReader}

/- A branch of conditional text or an alternative's item. -/
theorem readItem_givesUp
    (line : Nat)
    (hContent :
      ∀ cs, (content cs).GivesUpIf (HasLongNumber cs))
    (cs : List Char) :
    (readItem line content cs).GivesUpIf
      (HasLongNumber cs) := by
  unfold readItem
  refine GivesUpIf.bind_ensures (readDivert_givesUp line cs)
    (readDivert_sublist line cs) fun r hPart => ?_
  refine GivesUpIf.bind
    ((hContent r.1).mono fun hLong => hLong.mono hPart)
    fun fs => ?_
  exact GivesUpIf.guarded (GivesUpIf.pure _)

/- Conditional text. -/
theorem readConditional_givesUp
    {P : Prop}
    (line : Nat)
    (hContent :
      ∀ cs, (content cs).GivesUpIf (HasLongNumber cs))
    {condition : List Char}
    {branches : Marked}
    (hCondition : HasLongNumber condition → P)
    (hBranches : HasLongNumber branches.chars → P) :
    (readConditional line content condition
      branches).GivesUpIf P := by
  have hItem (ms : Marked) (hPart : ms.chars <+ branches.chars) :
      (readItem line content ms.chars).GivesUpIf P :=
    (readItem_givesUp line hContent ms.chars).mono
      fun hLong => hBranches (hLong.mono hPart)
  unfold readConditional
  refine GivesUpIf.bind
    ((readExpr?_givesUp line condition).mono hCondition)
    fun c => ?_
  apply GivesUpIf.guarded
  split
  · exact GivesUpIf.bind
      (hItem branches (List.Sublist.refl _))
      fun t => GivesUpIf.pure _
  · next yes no hCut =>
      have hParts := Marked.sublist_of_cut? hCut
      exact GivesUpIf.bind
        (hItem yes
          ((List.sublist_append_left _ _).trans hParts))
        fun t => GivesUpIf.bind
          (hItem no
            ((List.sublist_append_right _ _).trans hParts))
          fun f => GivesUpIf.pure _

/- A text in braces. -/
theorem readBraced_givesUp
    (line : Nat)
    (hContent :
      ∀ cs, (content cs).GivesUpIf (HasLongNumber cs))
    (inner : List Char) :
    (readBraced line content inner).GivesUpIf
      (HasLongNumber inner) := by
  unfold readBraced
  dsimp only
  split
  · exact GivesUpIf.report_pure _ _ _
  · split
    · next condition branches hCut =>
        have hParts := Marked.sublist_of_cut? hCut
        rw [chars_braceLevel] at hParts
        exact readConditional_givesUp line hContent
          (fun hLong => hLong.mono
            ((List.sublist_append_left _ _).trans hParts))
          (fun hLong => hLong.mono
            ((List.sublist_append_right _ _).trans hParts))
    · split
      · refine GivesUpIf.bind (GivesUpIf.mapM ?_) fun items =>
          GivesUpIf.bind GivesUpIf.nextNumber fun number =>
            GivesUpIf.pure _
        intro part hMem
        have hPart := sublist_of_mem_alternativeParts hMem
        rw [chars_braceLevel] at hPart
        exact (readItem_givesUp line hContent part).mono
          fun hLong => hLong.mono hPart
      · exact GivesUpIf.bind (readExpr?_givesUp line inner)
          fun e => GivesUpIf.pure _

/- The pieces of a text. -/
theorem readPieces_givesUp
    {P : Prop}
    (line : Nat)
    {braced : List Char → Reading (Option Fragment)}
    (ps : List Piece)
    (hBraced :
      ∀ inner, Piece.braced inner ∈ ps →
        (braced inner).GivesUpIf P)
    (waiting : List Char) :
    (readPieces line braced waiting ps).GivesUpIf P := by
  induction ps generalizing waiting with
  | nil => exact GivesUpIf.pure _
  | cons p ps ih =>
      have hRest := ih fun inner hMem =>
        hBraced inner (List.mem_cons_of_mem _ hMem)
      cases p with
      | char c => exact hRest (c :: waiting)
      | strayBrace =>
          exact GivesUpIf.bind (GivesUpIf.report _ _)
            fun _ => hRest waiting
      | unclosedBrace => exact GivesUpIf.report_pure _ _ _
      | braced inner =>
          exact GivesUpIf.bind
            (hBraced inner List.mem_cons_self)
            fun f => GivesUpIf.bind (hRest [])
              fun fs => GivesUpIf.pure _

/- The content that a text spells out. -/
theorem readFragments_givesUp
    (line : Nat)
    (cs : List Char) :
    (readFragments line cs).GivesUpIf (HasLongNumber cs) := by
  have hWithin (n : Nat) :
      ∀ cs, (readFragmentsWithin line n cs).GivesUpIf
        (HasLongNumber cs) := by
    induction n with
    | zero => exact fun cs => GivesUpIf.pure _
    | succ n ih =>
        intro cs
        refine readPieces_givesUp line (pieces cs) ?_ []
        intro inner hMem
        exact (readBraced_givesUp line ih inner).mono
          fun hLong => hLong.mono
            ((List.sublist_append_left _ _).trans
              (sublist_of_mem_pieces hMem))
  exact hWithin cs.length cs

end BranchingStory

------------------------------------------------------------
-- Lines
------------------------------------------------------------

namespace BranchingStory

open Reading
open scoped List

/- A line of content from its text and its divert. -/
theorem readGlued_givesUp
    (line : Nat)
    (cs : List Char)
    (target : Option (List Char))
    (tags : List String) :
    (readGlued line cs target tags).GivesUpIf
      (HasLongNumber cs) := by
  refine GivesUpIf.bind
    ((readFragments_givesUp line _).mono fun hLong => ?_)
    fun fs => GivesUpIf.pure _
  -- The blank that a divert adds is no digit.
  have hGap (c : Bool) :
      (if c then [' '] else []).countP isDigit = 0 := by
    cases c <;> rfl
  rw [HasLongNumber, List.countP_append, hGap,
    Nat.add_zero] at hLong
  exact HasLongNumber.mono hLong (dropGlue_sublist cs)

/- The body of a line of text. -/
theorem readLine_givesUp
    (line : Nat)
    (body : List Char) :
    (readLine line body).GivesUpIf (HasLongNumber body) := by
  have hTags := splitTags_sublist body
  unfold readLine
  generalize splitTags body = parts at hTags ⊢
  rcases parts with ⟨content, tags⟩
  refine GivesUpIf.bind_ensures
    (readDivert_givesUp line content)
    (readDivert_sublist line content) fun r hPart => ?_
  apply GivesUpIf.guarded
  exact (readGlued_givesUp line r.1 r.2 tags).mono
    fun hLong => hLong.mono (hPart.trans hTags)

/- The leading conditions of a choice. -/
theorem readConditions_givesUp
    (line : Nat)
    (cs : List Char) :
    (readConditions line cs).GivesUpIf (HasLongNumber cs) := by
  have hWithin (n : Nat) :
      ∀ cs, (readConditionsWithin line n cs).GivesUpIf
        (HasLongNumber cs) := by
    induction n with
    | zero => exact fun cs => GivesUpIf.pure _
    | succ n ih =>
        intro cs
        have hStart := trimStart_sublist cs
        rw [readConditionsWithin]
        split
        · next rest hBrace =>
            rw [hBrace] at hStart
            split
            · exact GivesUpIf.report_pure _ _ _
            · next inner rest' hTaken =>
                have hParts :=
                  ((sublist_of_takeBraced? hTaken).trans
                    (List.sublist_cons_self _ _)).trans hStart
                refine GivesUpIf.bind
                  ((readExpr?_givesUp line inner).mono ?_)
                  fun e => GivesUpIf.bind
                    ((ih rest').mono ?_)
                    fun r => GivesUpIf.pure _
                · exact fun hLong => hLong.mono
                    ((List.sublist_append_left _ _).trans
                      hParts)
                · exact fun hLong => hLong.mono
                    ((List.sublist_append_right _ _).trans
                      hParts)
        · exact GivesUpIf.pure _
  exact hWithin _ cs

/- Finding the brackets of a choice never gives up. -/
theorem splitBrackets_givesUp
    {P : Prop}
    (line : Nat)
    (cs : List Char) :
    (splitBrackets line cs).GivesUpIf P := by
  unfold splitBrackets
  dsimp only
  split
  · exact GivesUpIf.pure _
  · split
    · split
      · split
        · exact GivesUpIf.pure _
        · exact GivesUpIf.report_pure _ _ _
      · exact GivesUpIf.report_pure _ _ _
    · exact GivesUpIf.report_pure _ _ _

/- The body of a choice. -/
theorem readChoice_givesUp
    (line : Nat)
    (sticky : Bool)
    (body : List Char) :
    (readChoice line sticky body).GivesUpIf
      (HasLongNumber body) := by
  have hTags := splitTags_sublist body
  unfold readChoice
  generalize splitTags body = parts at hTags ⊢
  rcases parts with ⟨content, tags⟩
  refine GivesUpIf.bind_ensures
    ((readConditions_givesUp line content).mono
      fun hLong => hLong.mono hTags)
    (readConditions_idles line content) fun r hConditions => ?_
  refine GivesUpIf.bind_ensures (readDivert_givesUp line r.2)
    (readDivert_sublist line r.2) fun s hContent => ?_
  refine GivesUpIf.bind_ensures (splitBrackets_givesUp line s.1)
    (splitBrackets_sublist line s.1) fun t hParts => ?_
  have hBody {part : List Char}
      (hPart : part <+ t.2.1 ++ t.2.2)
      (hLong : HasLongNumber (t.1 ++ part)) :
      HasLongNumber body :=
    hLong.mono (((hPart.append_left t.1).trans hParts).trans
      (hContent.trans (hConditions.2.trans hTags)))
  refine GivesUpIf.bind
    ((readFragments_givesUp line _).mono fun hLong =>
      hBody (List.sublist_append_left _ _)
        (hLong.mono (trim_sublist _)))
    fun shown => ?_
  apply GivesUpIf.guarded
  exact GivesUpIf.bind
    ((readGlued_givesUp line _ s.2 tags).mono
      (hBody (List.sublist_append_right _ _)))
    fun output => GivesUpIf.pure _

/- The body of an assignment. -/
theorem readAssignment_givesUp
    (line : Nat)
    (body : List Char) :
    (readAssignment line body).GivesUpIf
      (HasLongNumber body) := by
  unfold readAssignment
  dsimp only
  split
  · next op value _ hParts =>
      have hValue :=
        (sublist_of_assignmentParts? hParts).trans
          ((trimStart_sublist _).trans
            ((List.dropWhile_sublist _).trans
              (trim_sublist body)))
      exact GivesUpIf.bind
        ((readExpr?_givesUp line value).mono
          fun hLong => hLong.mono hValue)
        fun e => GivesUpIf.pure _
  · exact GivesUpIf.report_pure _ _ _

/- Reading a declaration never gives up. -/
theorem readDeclaration_givesUp
    {P : Prop}
    (line : Nat)
    (body : List Char) :
    (readDeclaration line body).GivesUpIf P := by
  unfold readDeclaration
  split
  · exact GivesUpIf.report_pure _ _ _
  · dsimp only
    split
    · split
      · exact GivesUpIf.pure _
      · exact GivesUpIf.report_pure _ _ _
    · exact GivesUpIf.report_pure _ _ _

end BranchingStory

------------------------------------------------------------
-- Building
------------------------------------------------------------

namespace BranchingStory

open Reading

/- Finishing the knot at hand never gives up. -/
theorem Builder.closeKnot_givesUp
    {P : Prop}
    (b : Builder) :
    b.closeKnot.GivesUpIf P := by
  have hReport (knot : String) (ss : List Stitch) :
      (reportEmptyStitches knot ss).GivesUpIf P := by
    induction ss with
    | nil => exact GivesUpIf.pure _
    | cons s ss ih =>
        rw [reportEmptyStitches]
        exact GivesUpIf.guarded ih
  unfold closeKnot
  split
  · exact GivesUpIf.pure _
  · apply GivesUpIf.guarded
    exact GivesUpIf.bind (hReport _ _) fun _ => GivesUpIf.pure _

/- Neither do headers. -/
theorem Builder.addKnot_givesUp
    {P : Prop}
    (line : Nat)
    (name : String)
    (b : Builder) :
    (b.addKnot line name).GivesUpIf P := by
  unfold addKnot
  refine GivesUpIf.bind b.closeKnot_givesUp fun b' => ?_
  dsimp only
  split
  · exact GivesUpIf.bind (GivesUpIf.report _ _)
      fun _ => GivesUpIf.pure _
  · exact GivesUpIf.bind (GivesUpIf.pure _)
      fun _ => GivesUpIf.pure _

theorem Builder.addStitch_givesUp
    {P : Prop}
    (line : Nat)
    (name : String)
    (b : Builder) :
    (b.addStitch line name).GivesUpIf P := by
  unfold addStitch
  split
  · exact GivesUpIf.report_pure _ _ _
  · split
    · exact GivesUpIf.report_pure _ _ _
    · exact GivesUpIf.pure _

/- Neither do declarations. -/
theorem Builder.addDeclaration_givesUp
    {P : Prop}
    (line : Nat)
    (constant : Bool)
    (text : String)
    (b : Builder) :
    (b.addDeclaration line constant text).GivesUpIf P := by
  unfold addDeclaration
  split
  · exact GivesUpIf.report_pure _ _ _
  · refine GivesUpIf.bind (readDeclaration_givesUp _ _)
      fun r => ?_
    split
    · exact GivesUpIf.pure _
    · split
      · exact GivesUpIf.report_pure _ _ _
      · exact GivesUpIf.pure _

/- Finding the depth of a line never gives up. -/
theorem Builder.clampDepth_givesUp
    {P : Prop}
    (line depth innermost : Nat) :
    (clampDepth line depth innermost).GivesUpIf P := by
  unfold clampDepth
  split
  · exact GivesUpIf.report_pure _ _ _
  · exact GivesUpIf.pure _

/- Only a line with too many digits cannot be added. -/
theorem Builder.add_givesUp
    (b : Builder)
    (l : ScriptLine) :
    (b.add l).GivesUpIf (HasLongNumber l.text.toList) := by
  have hLine :
      (b.addLine l.line l.text).GivesUpIf
        (HasLongNumber l.text.toList) := by
    unfold addLine
    exact GivesUpIf.bind (readLine_givesUp l.line _)
      fun content => GivesUpIf.pure _
  unfold add
  split
  · exact addDeclaration_givesUp _ _ _ b
  · exact GivesUpIf.pure _
  · exact addKnot_givesUp _ _ b
  · exact addStitch_givesUp _ _ b
  · unfold addChoice
    refine GivesUpIf.bind (clampDepth_givesUp _ _ _)
      fun depth => ?_
    exact GivesUpIf.bind (readChoice_givesUp l.line _ _)
      fun choice => GivesUpIf.pure _
  · unfold addGather
    refine GivesUpIf.bind (clampDepth_givesUp _ _ _)
      fun depth => ?_
    dsimp only
    split
    · exact GivesUpIf.pure _
    · exact GivesUpIf.bind (readLine_givesUp l.line _)
        fun content => GivesUpIf.pure _
  · unfold addAssignment
    refine GivesUpIf.bind (readAssignment_givesUp l.line _)
      fun r => ?_
    split
    · exact GivesUpIf.pure _
    · exact GivesUpIf.pure _
  · exact hLine
  · exact hLine

/- Only such a line ends the building of an outline. -/
theorem buildOutline_givesUp
    (ls : List ScriptLine) :
    (buildOutline ls).GivesUpIf
      (∃ l ∈ ls, HasLongNumber l.text.toList) := by
  have hLines (b : Builder) :
      (ls.foldlM Builder.add b).GivesUpIf
        (∃ l ∈ ls, HasLongNumber l.text.toList) := by
    induction ls generalizing b with
    | nil => exact GivesUpIf.pure b
    | cons l ls ih =>
        rw [List.foldlM_cons]
        refine GivesUpIf.bind
          ((b.add_givesUp l).mono fun hLong =>
            ⟨l, List.mem_cons_self, hLong⟩)
          fun b' => (ih b').mono ?_
        rintro ⟨l', hMem, hLong⟩
        exact ⟨l', List.mem_cons_of_mem _ hMem, hLong⟩
  unfold buildOutline
  refine GivesUpIf.bind (hLines .empty) fun b => ?_
  refine GivesUpIf.bind b.closeKnot_givesUp fun b' => ?_
  split
  · exact GivesUpIf.report_pure _ _ _
  · exact GivesUpIf.pure _

end BranchingStory
