import BranchingStory.Proofs.LongNumbers
import BranchingStory.Proofs.Numbering
import BranchingStory.Proofs.Resolution

/-
  This file reads the same content twice, the second time when
  more alternatives have been numbered.  All that differs is
  the numbers, each of which is larger by as many.

  Key definitions include:
    * `Fragment.shift`
    * `Reading.Shifts`

  Key theorems include:
    * `Reading.Shifts.bind`
    * `alternativesIn_shiftAll`
    * `shiftAll_resolveAll`
    * `readPieces_shifts`
    * `readFragmentsWithin_shifts`
-/

------------------------------------------------------------
-- Larger Numbers
------------------------------------------------------------

namespace BranchingStory

mutual

/- A fragment whose alternatives have larger numbers. -/
def Fragment.shift
    (k : Nat) : Fragment → Fragment
  | .conditional c t f =>
      .conditional c (shiftAll k t) (shiftAll k f)
  | .alternative m items number =>
      .alternative m (shiftItems k items) (number + k)
  | f => f

/- Fragments whose alternatives have larger numbers. -/
def shiftAll
    (k : Nat) : List Fragment → List Fragment
  | [] => []
  | f :: fs => f.shift k :: shiftAll k fs

/- The same for the items of an alternative. -/
def shiftItems
    (k : Nat) : List (List Fragment) → List (List Fragment)
  | [] => []
  | fs :: items => shiftAll k fs :: shiftItems k items

end

variable (k : Nat)

theorem shiftAll_append
    (fs gs : List Fragment) :
    shiftAll k (fs ++ gs) = shiftAll k fs ++ shiftAll k gs := by
  induction fs with
  | nil => rfl
  | cons f fs ih =>
      rw [List.cons_append, shiftAll, shiftAll, ih,
        List.cons_append]

theorem shiftItems_eq_map
    (items : List (List Fragment)) :
    shiftItems k items = items.map (shiftAll k) := by
  induction items with
  | nil => rfl
  | cons fs items ih => rw [shiftItems, ih, List.map_cons]

/- Text has no numbers. -/
theorem shiftAll_textFragment
    (cs : List Char) :
    shiftAll k (textFragment cs) = textFragment cs := by
  cases cs with
  | nil => rfl
  | cons c cs => rfl

/- Neither has a divert. -/
theorem shiftAll_divertTo
    (line : Nat)
    (target : Option (List Char)) :
    shiftAll k (divertTo line target) =
      divertTo line target := by
  unfold divertTo
  split
  · rfl
  · rfl

mutual

/- A fragment keeps its parts, each with larger numbers. -/
theorem Fragment.walk_shift
    (f : Fragment) :
    Fragment.walk (f.shift k) =
      (Fragment.walk f).map (Fragment.shift k) := by
  cases f with
  | text s => simp [Fragment.shift, Fragment.walk]
  | insertion e => simp [Fragment.shift, Fragment.walk]
  | conditional c t f =>
      simp [Fragment.shift, Fragment.walk, walkAll_shiftAll t,
        walkAll_shiftAll f]
  | alternative m items n =>
      simp [Fragment.shift, Fragment.walk,
        walkItems_shiftItems items]
  | divert d => simp [Fragment.shift, Fragment.walk]

/- The same for fragments one after the other. -/
theorem walkAll_shiftAll
    (fs : List Fragment) :
    Fragment.walkAll (shiftAll k fs) =
      (Fragment.walkAll fs).map (Fragment.shift k) := by
  cases fs with
  | nil => simp [shiftAll, Fragment.walkAll]
  | cons f fs =>
      simp [shiftAll, Fragment.walkAll, Fragment.walk_shift f,
        walkAll_shiftAll fs]

/- The same for the items of an alternative. -/
theorem walkItems_shiftItems
    (items : List (List Fragment)) :
    Fragment.walkItems (shiftItems k items) =
      (Fragment.walkItems items).map (Fragment.shift k) := by
  cases items with
  | nil => simp [shiftItems, Fragment.walkItems]
  | cons fs items =>
      simp [shiftItems, Fragment.walkItems, walkAll_shiftAll fs,
        walkItems_shiftItems items]

end

/- The number of an alternative is larger, its size the same. -/
theorem Fragment.alternative?_shift
    (f : Fragment) :
    (f.shift k).alternative? =
      f.alternative?.map fun x => (x.1 + k, x.2) := by
  cases f with
  | alternative m items n =>
      simp [Fragment.shift, Fragment.alternative?,
        shiftItems_eq_map]
  | text s => simp [Fragment.shift, Fragment.alternative?]
  | insertion e => simp [Fragment.shift, Fragment.alternative?]
  | conditional c t f =>
      simp [Fragment.shift, Fragment.alternative?]
  | divert d => simp [Fragment.shift, Fragment.alternative?]

/- So are the numbers of all alternatives. -/
theorem alternativesIn_shiftAll
    (fs : List Fragment) :
    alternativesIn (shiftAll k fs) =
      (alternativesIn fs).map fun x => (x.1 + k, x.2) := by
  rw [alternativesIn, walkAll_shiftAll, List.filterMap_map,
    alternativesIn, List.map_filterMap]
  exact List.filterMap_congr fun f _ =>
    Fragment.alternative?_shift k f

variable (o : Outline)
variable (knot : String)

mutual

/- What names mean does not depend on numbers. -/
theorem Fragment.shift_resolve
    (f : Fragment) :
    (f.resolve o knot).shift k = (f.shift k).resolve o knot := by
  cases f with
  | conditional c t f =>
      simp only [Fragment.resolve, Fragment.shift,
        shiftAll_resolveAll t, shiftAll_resolveAll f]
  | alternative m items number =>
      simp only [Fragment.resolve, Fragment.shift,
        shiftItems_resolveItems items]
  | text s => simp only [Fragment.resolve, Fragment.shift]
  | insertion e => simp only [Fragment.resolve, Fragment.shift]
  | divert d => simp only [Fragment.resolve, Fragment.shift]

/- The same for fragments one after the other. -/
theorem shiftAll_resolveAll
    (fs : List Fragment) :
    shiftAll k (Fragment.resolveAll o knot fs) =
      Fragment.resolveAll o knot (shiftAll k fs) := by
  cases fs with
  | nil => rfl
  | cons f fs =>
      simp only [Fragment.resolveAll, shiftAll,
        Fragment.shift_resolve f, shiftAll_resolveAll fs]

/- The same for the items of an alternative. -/
theorem shiftItems_resolveItems
    (items : List (List Fragment)) :
    shiftItems k (Fragment.resolveItems o knot items) =
      Fragment.resolveItems o knot (shiftItems k items) := by
  cases items with
  | nil => rfl
  | cons fs items =>
      simp only [Fragment.resolveItems, shiftItems,
        shiftAll_resolveAll fs, shiftItems_resolveItems items]

end

end BranchingStory

------------------------------------------------------------
-- Readings From A Later Number
------------------------------------------------------------

namespace BranchingStory

namespace Reading

variable {α β α' β' : Type}
variable {k : Nat}

/-
  Whether a reading from a draft with more numbers handed out
  shifts another one: where both end well, their values are
  related as required, and the numbers are ahead by as many.
-/
def Shifts
    (k : Nat)
    (R : α → α' → Prop)
    (r : Reading α)
    (r' : Reading α') : Prop :=
  ∀ d d', d'.numbered = d.numbered + k →
    ∀ a e, r.run d = .ok (a, e) →
      ∀ a' e', r'.run d' = .ok (a', e') →
        R a a' ∧ e'.numbered = e.numbered + k

namespace Shifts

variable {R : α → α' → Prop}
variable {S : β → β' → Prop}
variable {r : Reading α}
variable {r' : Reading α'}

theorem pure
    {a : α}
    {a' : α'}
    (hRelated : R a a') :
    Shifts k R (Pure.pure a) (Pure.pure a') := by
  intro d d' hAhead b e hRun b' e' hRun'
  rcases run_pure_ok.mp hRun with ⟨rfl, rfl⟩
  rcases run_pure_ok.mp hRun' with ⟨rfl, rfl⟩
  exact ⟨hRelated, hAhead⟩

/- Readings that shift may follow one another. -/
theorem bind
    {g : α → Reading β}
    {g' : α' → Reading β'}
    (hFirst : Shifts k R r r')
    (hThen : ∀ a a', R a a' → Shifts k S (g a) (g' a')) :
    Shifts k S (r >>= g) (r' >>= g') := by
  intro d d' hAhead b e hRun b' e' hRun'
  rcases run_bind_ok.mp hRun with ⟨a, d₁, hRun₁, hRun₂⟩
  rcases run_bind_ok.mp hRun' with ⟨a', d₁', hRun₁', hRun₂'⟩
  rcases hFirst d d' hAhead a d₁ hRun₁ a' d₁' hRun₁' with
    ⟨hRelated, hAhead'⟩
  exact hThen a a' hRelated d₁ d₁' hAhead' b e hRun₂ b' e'
    hRun₂'

/- Steps that hand out no numbers shift each other. -/
theorem of_idles
    {r r' : Reading α}
    (hIdles : r.Idles fun _ => True)
    (hIdles' : r'.Idles fun _ => True)
    (hSame : ∀ d d' a e a' e', r.run d = .ok (a, e) →
      r'.run d' = .ok (a', e') → a' = a) :
    Shifts k (fun a a' => a' = a) r r' := by
  intro d d' hAhead a e hRun a' e' hRun'
  refine ⟨hSame d d' a e a' e' hRun hRun', ?_⟩
  rw [(hIdles' d' a' e' hRun').2.1, (hIdles d a e hRun).2.1]
  exact hAhead

/- Issues do not count. -/
theorem report
    (cause : Cause)
    (line : Nat) :
    Shifts k (fun a a' => a' = a) (Reading.report cause line)
      (Reading.report cause line) :=
  of_idles (Idles.report cause line) (Idles.report cause line)
    fun _ _ _ _ _ _ _ _ => rfl

/- The number that is handed out is larger by as many. -/
theorem nextNumber :
    Shifts k (fun n n' => n' = n + k) Reading.nextNumber
      Reading.nextNumber := by
  intro d d' hAhead n e hRun n' e' hRun'
  rw [run_nextNumber] at hRun hRun'
  cases hRun
  cases hRun'
  refine ⟨hAhead, ?_⟩
  simp only [hAhead]
  omega

/- Whichever of two readings is made. -/
theorem ite
    {c : Prop}
    [Decidable c]
    {s : Reading α}
    {s' : Reading α'}
    (hThen : Shifts k R r r')
    (hElse : Shifts k R s s') :
    Shifts k R (if c then r else s) (if c then r' else s') := by
  split
  · exact hThen
  · exact hElse

/- An issue may be reported before going on. -/
theorem guarded
    {c : Prop}
    [Decidable c]
    {cause : Cause}
    {line : Nat}
    {g : Unit → Reading α}
    {g' : Unit → Reading α'}
    (hNext : Shifts k R (g ()) (g' ())) :
    Shifts k R
      (if c then Reading.report cause line >>= g else g ())
      (if c then Reading.report cause line >>= g'
        else g' ()) :=
  ite ((report cause line).bind fun _ _ _ => hNext) hNext

/- Readings for each item of a list, and what they yield. -/
theorem mapM
    {γ : Type}
    {ρ : α → α'}
    {g : γ → Reading α}
    {g' : γ → Reading α'}
    {xs : List γ}
    (hEach : ∀ x ∈ xs,
      Shifts k (fun a a' => a' = ρ a) (g x) (g' x)) :
    Shifts k (fun as as' => as' = as.map ρ) (xs.mapM g)
      (xs.mapM g') := by
  induction xs with
  | nil => exact .pure rfl
  | cons x xs ih =>
      rw [List.forall_mem_cons] at hEach
      rw [List.mapM_cons, List.mapM_cons]
      refine hEach.1.bind fun a a' hFirst => ?_
      refine (ih hEach.2).bind fun as as' hRest => ?_
      exact .pure (by rw [hFirst, hRest, List.map_cons])

end Shifts

end Reading

end BranchingStory

------------------------------------------------------------
-- Content
------------------------------------------------------------

namespace BranchingStory

open Reading

variable {k line : Nat}

/- An expression does not depend on what was read before. -/
theorem readExpr?_shifts
    (cs : List Char) :
    Shifts k (fun e e' => e' = e) (readExpr? line cs)
      (readExpr? line cs) := by
  unfold readExpr?
  split
  · exact .pure rfl
  · intro d d' _ a e hRun
    rw [run_giveUp] at hRun
    cases hRun
  · exact (Shifts.report _ _).bind fun _ _ _ => .pure rfl

/- Neither does a divert. -/
theorem readDivert_shifts
    (cs : List Char) :
    Shifts k (fun p p' => p' = p) (readDivert line cs)
      (readDivert line cs) := by
  unfold readDivert
  split
  · exact .guarded (.pure rfl)
  · exact (Shifts.report _ _).bind fun _ _ _ => .pure rfl
  · exact .pure rfl

/-
  Whether two readers of content shift each other on all texts
  up to a length.
-/
def ContentReader.ShiftsUpTo
    (k length : Nat)
    (content content' : ContentReader) : Prop :=
  ∀ cs, cs.length ≤ length →
    Shifts k (fun fs fs' => fs' = shiftAll k fs) (content cs)
      (content' cs)

variable {length : Nat}
variable {content content' : ContentReader}

/- An item of an alternative shifts with its content. -/
theorem readItem_shifts
    (hContent : content.ShiftsUpTo k length content')
    {cs : List Char}
    (hLength : cs.length ≤ length) :
    Shifts k (fun fs fs' => fs' = shiftAll k fs)
      (readItem line content cs)
      (readItem line content' cs) := by
  have hDivert :
      Shifts k
        (fun p p' => p' = p ∧ p.1.length ≤ cs.length)
        (readDivert line cs) (readDivert line cs) := by
    intro d d' hAhead p e hRun p' e' hRun'
    rcases
        readDivert_shifts cs d d' hAhead p e hRun p' e'
          hRun' with
      ⟨hSame, hAhead'⟩
    have hPart := (readDivert_sublist line cs d p e hRun).2.2
    exact ⟨⟨hSame, hPart.length_le⟩, hAhead'⟩
  refine hDivert.bind fun p p' hBoth => ?_
  rcases p with ⟨body, target⟩
  rcases hBoth with ⟨rfl, hShorter⟩
  refine (hContent body (Nat.le_trans hShorter hLength)).bind
    fun fs fs' hSame => ?_
  refine .guarded (.pure ?_)
  rw [hSame, shiftAll_append, shiftAll_divertTo]

/- So does conditional text. -/
theorem readConditional_shifts
    (hContent : content.ShiftsUpTo k length content')
    (condition : List Char)
    {branches : Marked}
    (hLength : branches.length ≤ length) :
    Shifts k (fun f f' => f' = f.map (Fragment.shift k))
      (readConditional line content condition branches)
      (readConditional line content' condition branches) := by
  refine (readExpr?_shifts condition).bind fun c c' hSame => ?_
  subst hSame
  refine .guarded ?_
  cases hCut : branches.cut? '|' with
  | none =>
      have hWhole : branches.chars.length ≤ length := by
        rwa [Marked.length_chars]
      refine (readItem_shifts hContent hWhole).bind
        fun t t' hThen => .pure ?_
      subst hThen
      cases c' with
      | none => rfl
      | some c => rfl
  | some parts =>
      rcases parts with ⟨yes, no⟩
      have hParts := Marked.length_cut? hCut
      have hYes : yes.chars.length ≤ length := by
        rw [Marked.length_chars]
        omega
      have hNo : no.chars.length ≤ length := by
        rw [Marked.length_chars]
        omega
      refine (readItem_shifts hContent hYes).bind
        fun t t' hThen => ?_
      refine (readItem_shifts hContent hNo).bind
        fun f f' hElse => .pure ?_
      subst hThen hElse
      cases c' with
      | none => rfl
      | some c => rfl

/- So does a text in braces. -/
theorem readBraced_shifts
    {inner : List Char}
    (hContent : content.ShiftsUpTo k inner.length content') :
    Shifts k (fun f f' => f' = f.map (Fragment.shift k))
      (readBraced line content inner)
      (readBraced line content' inner) := by
  have hMarked := Marked.length_braceLevel inner
  refine .ite ((Shifts.report _ _).bind fun _ _ _ =>
    .pure rfl) ?_
  cases hCut : (braceLevel inner).cut? ':' with
  | some parts =>
      have hParts := Marked.length_cut? hCut
      exact readConditional_shifts hContent _ (by omega)
  | none =>
      refine .ite ?_ ?_
      · refine (Shifts.mapM fun part hMem =>
          readItem_shifts hContent ?_).bind
            fun items items' hItems => ?_
        · have hPart := sublist_of_mem_alternativeParts hMem
          rw [chars_braceLevel] at hPart
          exact hPart.length_le
        · refine Shifts.nextNumber.bind
            fun number number' hNumber => .pure ?_
          rw [hItems, hNumber, Option.map_some, Fragment.shift,
            shiftItems_eq_map]
      · refine (readExpr?_shifts inner).bind
          fun e e' hSame => .pure ?_
        subst hSame
        cases e' with
        | none => rfl
        | some e => rfl

/-
  Pieces are joined and read with larger numbers.  Characters
  that are added at the end go on with the last text, or have
  been lost with a brace that is not closed.
-/
theorem readPieces_shifts
    (line : Nat)
    {braced braced' : List Char → Reading (Option Fragment)}
    (more : List Char)
    (waiting : List Char)
    {ps : List Piece}
    (hBraced : ∀ inner, .braced inner ∈ ps →
      Shifts k (fun f f' => f' = f.map (Fragment.shift k))
        (braced inner) (braced' inner)) :
    Shifts k
      (fun fs fs' => ∃ body last added,
        (added = more ∨ added = []) ∧
        fs = body ++ textFragment last ∧
        fs' = shiftAll k body ++ textFragment (last ++ added))
      (readPieces line braced waiting ps)
      (readPieces line braced' waiting
        (ps ++ more.map .char)) := by
  have hMore (waiting : List Char) :
      readPieces line braced' waiting (more.map .char) =
        pure (textFragment (waiting.reverse ++ more)) := by
    induction more generalizing waiting with
    | nil => rw [List.map_nil, readPieces, List.append_nil]
    | cons c more ih =>
        rw [List.map_cons, readPieces, ih, List.reverse_cons,
          List.append_assoc, List.singleton_append]
  fun_induction readPieces line braced waiting ps with
  | case1 waiting =>
      rw [List.nil_append, hMore]
      exact .pure ⟨[], _, _, Or.inl rfl, rfl, rfl⟩
  | case2 waiting c ps ih =>
      exact ih fun inner hMem =>
        hBraced inner (List.mem_cons_of_mem _ hMem)
  | case3 waiting ps ih =>
      refine (Shifts.report _ _).bind fun _ _ _ => ?_
      exact ih fun inner hMem =>
        hBraced inner (List.mem_cons_of_mem _ hMem)
  | case4 waiting ps =>
      refine (Shifts.report _ _).bind fun _ _ _ => .pure ?_
      refine ⟨[], _, [], Or.inr rfl, rfl, ?_⟩
      rw [List.append_nil]
      rfl
  | case5 waiting inner ps ih =>
      refine (hBraced inner List.mem_cons_self).bind
        fun f f' hSame => ?_
      refine (ih fun inner hMem =>
        hBraced inner (List.mem_cons_of_mem _ hMem)).bind
          fun fs fs' hRest => .pure ?_
      rcases hRest with ⟨body, last, added, hAdded, rfl, rfl⟩
      refine ⟨textFragment waiting.reverse ++ f.toList ++ body,
        last, added, hAdded, ?_, ?_⟩
      · simp only [List.append_assoc]
      · rw [hSame, shiftAll_append, shiftAll_append,
          shiftAll_textFragment]
        cases f with
        | none => simp [shiftAll]
        | some f => simp [shiftAll]

/- A text in braces is shorter than the text around it. -/
theorem length_lt_of_braced
    {cs inner : List Char}
    (hMem : Piece.braced inner ∈ pieces cs) :
    inner.length < cs.length := by
  have hLength := (sublist_of_mem_pieces hMem).length_le
  rw [List.length_append] at hLength
  exact hLength

/-
  Content is read with larger numbers, whatever bounds on the
  nesting of its braces there are beyond its length.
-/
theorem readFragmentsWithin_shifts
    {n m : Nat}
    {cs : List Char}
    (hFirst : cs.length ≤ n)
    (hSecond : cs.length ≤ m) :
    Shifts k (fun fs fs' => fs' = shiftAll k fs)
      (readFragmentsWithin line n cs)
      (readFragmentsWithin line m cs) := by
  induction n generalizing m cs with
  | zero =>
      cases List.length_eq_zero_iff.mp (Nat.le_zero.mp hFirst)
      cases m with
      | zero => exact .pure rfl
      | succ m => exact .pure rfl
  | succ n ih =>
      cases m with
      | zero =>
          cases List.length_eq_zero_iff.mp
            (Nat.le_zero.mp hSecond)
          exact .pure rfl
      | succ m =>
          have hBraced : ∀ inner, .braced inner ∈ pieces cs →
              Shifts k (fun f f' => f' = f.map (Fragment.shift k))
                (readBraced line (readFragmentsWithin line n)
                  inner)
                (readBraced line (readFragmentsWithin line m)
                  inner) := by
            intro inner hMem
            have hShorter := length_lt_of_braced hMem
            refine readBraced_shifts fun cs' hLength => ?_
            exact ih (by omega) (by omega)
          have hPieces := readPieces_shifts line [] [] hBraced
          rw [List.map_nil, List.append_nil] at hPieces
          intro d d' hAhead fs e hRun fs' e' hRun'
          rcases hPieces d d' hAhead fs e hRun fs' e' hRun' with
            ⟨⟨body, last, added, hAdded, rfl, rfl⟩, hAhead'⟩
          refine ⟨?_, hAhead'⟩
          rcases hAdded with rfl | rfl <;>
            rw [List.append_nil, shiftAll_append,
              shiftAll_textFragment]

end BranchingStory
