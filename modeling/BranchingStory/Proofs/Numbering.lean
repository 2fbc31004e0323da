import BranchingStory.Proofs.Drafts
import BranchingStory.Proofs.Excerpts
import BranchingStory.Proofs.Leaves
import BranchingStory.Proofs.Plain

/-
  This file follows the numbers of alternatives through the
  reading of content: each alternative gets a number that no
  other one has, none is without items, and the length of a
  text bounds how many numbers it takes.

  Key definitions include:
    * `alternativesIn`
    * `PlainIn`
    * `Draft.Numbers`
    * `Reading.Writes`

  Key theorems include:
    * `Draft.Numbers.append`
    * `readFragments_writes`
    * `readLine_writes`
    * `readChoice_writes`
-/

------------------------------------------------------------
-- Numbers Handed Out
------------------------------------------------------------

namespace BranchingStory

/-
  The alternatives in a list of fragments, each with its
  number and how many items it has.
-/
def alternativesIn
    (fs : List Fragment) : List (Nat × Nat) :=
  (Fragment.walkAll fs).filterMap Fragment.alternative?

/- Whether all expressions in a list of fragments are plain. -/
def PlainIn
    (fs : List Fragment) : Prop :=
  ∀ e ∈ (Fragment.walkAll fs).filterMap
    Fragment.expression?, e.IsPlain

namespace Draft

/-
  Whether alternatives have got their numbers between two
  drafts: each one a number of its own, none without items,
  and no more numbers were handed out than allowed.
-/
structure Numbers
    (d d' : Draft)
    (xs : List (Nat × Nat))
    (allowed : Nat) : Prop where
  precedes : d.Precedes d'
  nodup : (xs.map Prod.fst).Nodup
  least : ∀ x ∈ xs, d.numbered ≤ x.1
  most : ∀ x ∈ xs, x.1 < d'.numbered
  filled : ∀ x ∈ xs, 0 < x.2
  bounded : d'.numbered ≤ d.numbered + allowed

namespace Numbers

variable {d d' d'' : Draft}
variable {xs ys : List (Nat × Nat)}
variable {m n : Nat}

/- A draft that goes on without new numbers. -/
theorem none
    (hPrecedes : d.Precedes d')
    (hSame : d'.numbered = d.numbered) :
    d.Numbers d' [] 0 where
  precedes := hPrecedes
  nodup := List.nodup_nil
  least := by simp
  most := by simp
  filled := by simp
  bounded := by omega

/- Alternatives may be listed in any order. -/
theorem perm
    (hNumbers : d.Numbers d' xs m)
    (hOrder : ys.Perm xs) :
    d.Numbers d' ys m where
  precedes := hNumbers.precedes
  nodup := ((hOrder.map _).nodup_iff).mpr hNumbers.nodup
  least := fun x hMem => hNumbers.least x (hOrder.subset hMem)
  most := fun x hMem => hNumbers.most x (hOrder.subset hMem)
  filled := fun x hMem => hNumbers.filled x (hOrder.subset hMem)
  bounded := hNumbers.bounded

/- More numbers may be allowed. -/
theorem mono
    (hNumbers : d.Numbers d' xs m)
    (hAllowed : m ≤ n) :
    d.Numbers d' xs n :=
  { hNumbers with
    bounded := Nat.le_trans hNumbers.bounded (by omega) }

/- Numbers that are handed out later are others. -/
theorem append
    (hFirst : d.Numbers d' xs m)
    (hSecond : d'.Numbers d'' ys n) :
    d.Numbers d'' (xs ++ ys) (m + n) where
  precedes := hFirst.precedes.trans hSecond.precedes
  nodup := by
    rw [List.map_append, List.nodup_append]
    refine ⟨hFirst.nodup, hSecond.nodup, ?_⟩
    intro i hMem j hMem' hSame
    rcases List.mem_map.mp hMem with ⟨x, hx, rfl⟩
    rcases List.mem_map.mp hMem' with ⟨y, hy, rfl⟩
    have hMost := hFirst.most x hx
    have hLeast := hSecond.least y hy
    omega
  least := by
    intro x hMem
    rcases List.mem_append.mp hMem with hMem | hMem
    · exact hFirst.least x hMem
    · exact Nat.le_trans hFirst.precedes.numbered
        (hSecond.least x hMem)
  most := by
    intro x hMem
    rcases List.mem_append.mp hMem with hMem | hMem
    · exact Nat.lt_of_lt_of_le (hFirst.most x hMem)
        hSecond.precedes.numbered
    · exact hSecond.most x hMem
  filled := by
    intro x hMem
    rcases List.mem_append.mp hMem with hMem | hMem
    · exact hFirst.filled x hMem
    · exact hSecond.filled x hMem
  bounded := by
    have hBound := hFirst.bounded
    have hBound' := hSecond.bounded
    omega

/- An alternative gets its number after those within it. -/
theorem number
    (hNumbers : d.Numbers d' xs m)
    {size : Nat}
    (hFilled : 0 < size) :
    d.Numbers { d' with numbered := d'.numbered + 1 }
      ((d'.numbered, size) :: xs) (m + 1) where
  precedes :=
    hNumbers.precedes.trans
      ⟨List.prefix_rfl, Nat.le_succ _⟩
  nodup := by
    rw [List.map_cons, List.nodup_cons]
    refine ⟨?_, hNumbers.nodup⟩
    intro hMem
    rcases List.mem_map.mp hMem with ⟨x, hx, hSame⟩
    have hMost := hNumbers.most x hx
    omega
  least := by
    intro x hMem
    rcases List.mem_cons.mp hMem with rfl | hMem
    · exact hNumbers.precedes.numbered
    · exact hNumbers.least x hMem
  most := by
    intro x hMem
    rcases List.mem_cons.mp hMem with rfl | hMem
    · exact Nat.lt_succ_self _
    · exact Nat.lt_succ_of_lt (hNumbers.most x hMem)
  filled := by
    intro x hMem
    rcases List.mem_cons.mp hMem with rfl | hMem
    · exact hFilled
    · exact hNumbers.filled x hMem
  bounded := by
    have hBound := hNumbers.bounded
    simp only
    omega

end Numbers

end Draft

end BranchingStory

------------------------------------------------------------
-- Fragments In A Row
------------------------------------------------------------

namespace BranchingStory

namespace Fragment

@[simp] theorem walkAll_append
    (fs gs : List Fragment) :
    walkAll (fs ++ gs) = walkAll fs ++ walkAll gs := by
  induction fs with
  | nil => simp [walkAll]
  | cons f fs ih => simp [walkAll, ih]

@[simp] theorem walkAll_nil :
    walkAll [] = [] := by
  simp [walkAll]

@[simp] theorem walkAll_singleton
    (f : Fragment) :
    walkAll [f] = walk f := by
  simp [walkAll]

@[simp] theorem walkItems_nil :
    walkItems [] = [] := by
  simp [walkItems]

@[simp] theorem walkItems_cons
    (fs : List Fragment)
    (items : List (List Fragment)) :
    walkItems (fs :: items) =
      walkAll fs ++ walkItems items := by
  simp [walkItems]

end Fragment

@[simp] theorem alternativesIn_nil :
    alternativesIn [] = [] := by
  simp [alternativesIn]

@[simp] theorem alternativesIn_append
    (fs gs : List Fragment) :
    alternativesIn (fs ++ gs) =
      alternativesIn fs ++ alternativesIn gs := by
  simp [alternativesIn]

/- Fragments are plain in a row if they are on their own. -/
@[simp] theorem plainIn_append
    (fs gs : List Fragment) :
    PlainIn (fs ++ gs) ↔ PlainIn fs ∧ PlainIn gs := by
  simp only [PlainIn, Fragment.walkAll_append,
    List.filterMap_append, List.forall_mem_append]

@[simp] theorem plainIn_nil :
    PlainIn [] := by
  simp [PlainIn]

/- Text holds no alternatives and no expressions. -/
@[simp] theorem alternativesIn_textFragment
    (cs : List Char) :
    alternativesIn (textFragment cs) = [] := by
  unfold textFragment
  split
  · simp
  · simp [alternativesIn, Fragment.walk,
      Fragment.alternative?]

@[simp] theorem plainIn_textFragment
    (cs : List Char) :
    PlainIn (textFragment cs) := by
  unfold textFragment
  split
  · simp
  · simp [PlainIn, Fragment.walk, Fragment.expression?]

/- Diverts hold no alternatives and no expressions. -/
@[simp] theorem alternativesIn_divertTo
    (line : Nat)
    (target : Option (List Char)) :
    alternativesIn (divertTo line target) = [] := by
  unfold divertTo
  split
  · simp [alternativesIn, Fragment.walk,
      Fragment.alternative?]
  · simp

@[simp] theorem plainIn_divertTo
    (line : Nat)
    (target : Option (List Char)) :
    PlainIn (divertTo line target) := by
  unfold divertTo
  split
  · simp [PlainIn, Fragment.walk, Fragment.expression?]
  · simp

end BranchingStory

------------------------------------------------------------
-- Steps That Hand Out No Numbers
------------------------------------------------------------

namespace BranchingStory

namespace Reading

/-
  Whether a step hands out no numbers, and its value is as
  required.
-/
def Idles
    {α : Type}
    (r : Reading α)
    (Q : α → Prop) : Prop :=
  r.Ensures fun d a d' =>
    d.Precedes d' ∧ d'.numbered = d.numbered ∧ Q a

namespace Idles

variable {α β : Type}
variable {Q : α → Prop}

theorem pure
    {a : α}
    (hHolds : Q a) :
    Idles (Pure.pure a) Q :=
  Ensures.pure fun d =>
    ⟨Draft.Precedes.refl d, rfl, hHolds⟩

/- Less may be required of the value of a step. -/
theorem mono
    {r : Reading α}
    {S : α → Prop}
    (hIdles : r.Idles Q)
    (hWeaker : ∀ a, Q a → S a) :
    r.Idles S :=
  Ensures.mono hIdles fun _ a _ hAll =>
    ⟨hAll.1, hAll.2.1, hWeaker a hAll.2.2⟩

theorem bind
    {r : Reading α}
    {f : α → Reading β}
    {S : β → Prop}
    (hFirst : r.Idles Q)
    (hSecond : ∀ a, Q a → (f a).Idles S) :
    (r >>= f).Idles S := by
  intro d b d'' hRun
  rcases run_bind_ok.mp hRun with
    ⟨a, d', hRunFirst, hRunSecond⟩
  rcases hFirst d a d' hRunFirst with ⟨hAdds, hSame, hValue⟩
  rcases hSecond a hValue d' b d'' hRunSecond with
    ⟨hAdds', hSame', hValue'⟩
  exact ⟨hAdds.trans hAdds', hSame'.trans hSame, hValue'⟩

theorem report
    (cause : Cause)
    (line : Nat) :
    (Reading.report cause line).Idles fun _ => True := by
  intro d a d' hRun
  have hAdds := precedes_of_report hRun
  rw [run_report] at hRun
  cases hRun
  exact ⟨hAdds, rfl, trivial⟩

theorem report_pure
    (cause : Cause)
    (line : Nat)
    {a : α}
    (hHolds : Q a) :
    (Reading.report cause line >>= fun _ =>
      Pure.pure a).Idles Q :=
  bind (report cause line) fun _ _ => pure hHolds

theorem giveUp
    (digits : Nat) :
    (Reading.giveUp digits : Reading α).Idles Q := by
  intro d a d' hRun
  rw [run_giveUp] at hRun
  cases hRun

/- What is left to do after a step that may be left out. -/
theorem run_guarded
    {c : Prop}
    [Decidable c]
    {r : Reading Unit}
    {f : Unit → Reading β}
    {d d' : Draft}
    {b : β}
    (hFirst : r.Idles fun _ => True)
    (hRun :
      (if c then r >>= f else f ()).run d = .ok (b, d')) :
    ∃ d₁, d.Precedes d₁ ∧ d₁.numbered = d.numbered ∧
      (f ()).run d₁ = .ok (b, d') := by
  split at hRun
  · rcases run_bind_ok.mp hRun with ⟨u, d₁, hRunFirst, hRest⟩
    rcases hFirst d u d₁ hRunFirst with ⟨hAdds, hSame, _⟩
    exact ⟨d₁, hAdds, hSame, hRest⟩
  · exact ⟨d, Draft.Precedes.refl d, rfl, hRun⟩

/- A step that may be left out. -/
theorem guarded
    {c : Prop}
    [Decidable c]
    {r : Reading Unit}
    {f : Unit → Reading β}
    {S : β → Prop}
    (hFirst : r.Idles fun _ => True)
    (hSecond : (f ()).Idles S) :
    (if c then r >>= f else f ()).Idles S := by
  split
  · exact bind hFirst fun _ _ => hSecond
  · exact hSecond

end Idles

/-
  Whether a step hands out no numbers, and its value is as
  required unless an error is on record.
-/
structure Settles
    {α : Type}
    (r : Reading α)
    (Q : α → Prop) : Prop where
  idles : r.Idles fun _ => True
  checks : r.Checks Q

namespace Settles

variable {α β : Type}
variable {Q : α → Prop}

theorem pure
    {a : α}
    (hHolds : Q a) :
    Settles (Pure.pure a) Q :=
  ⟨Idles.pure trivial, Checks.pure hHolds⟩

theorem bind
    {r : Reading α}
    {f : α → Reading β}
    {S : β → Prop}
    (hFirst : r.Settles Q)
    (hSecond : ∀ a, (f a).Settles fun b => Q a → S b) :
    (r >>= f).Settles S :=
  ⟨Idles.bind hFirst.idles fun a _ => (hSecond a).idles,
    Checks.bind hFirst.checks fun a => (hSecond a).checks⟩

theorem of_idles
    {r : Reading α}
    (hIdles : r.Idles Q) :
    r.Settles Q where
  idles := hIdles.mono fun _ _ => trivial
  checks := Ensures.mono hIdles fun _ _ _ hAll =>
    ⟨hAll.1, fun _ => hAll.2.2⟩

theorem error
    {cause : Cause}
    {Q : Unit → Prop}
    (hError : cause.severity = .error)
    (line : Nat) :
    (Reading.report cause line).Settles Q :=
  ⟨Idles.report cause line, Checks.error hError line⟩

theorem error_pure
    {cause : Cause}
    (hError : cause.severity = .error)
    (line : Nat)
    (a : α) :
    (Reading.report cause line >>= fun _ =>
      Pure.pure a).Settles Q :=
  ⟨Idles.report_pure cause line trivial,
    Checks.error_pure hError line a⟩

theorem mono
    {r : Reading α}
    {Q' : α → Prop}
    (hSettles : r.Settles Q)
    (hWeaker : ∀ a, Q a → Q' a) :
    r.Settles Q' :=
  ⟨hSettles.idles, hSettles.checks.mono hWeaker⟩

/- A report of an error that is made under a condition. -/
theorem refused
    {c : Prop}
    [Decidable c]
    {cause : Cause}
    {f : Unit → Reading β}
    {S : β → Prop}
    (hError : cause.severity = .error)
    (line : Nat)
    (hSecond : (f ()).Settles fun b => ¬ c → S b) :
    (if c then Reading.report cause line >>= f
      else f ()).Settles S := by
  split
  · refine bind (error (Q := fun _ => False) hError line)
      fun _ => ?_
    exact hSecond.mono fun _ _ hFalse => hFalse.elim
  · next hFails =>
      exact hSecond.mono fun _ hValue => hValue hFails

end Settles

end Reading

open Reading
open scoped List

/- An expression that is read is plain. -/
theorem readExpr?_idles
    (line : Nat)
    (cs : List Char) :
    (readExpr? line cs).Idles fun r =>
      ∀ e, r = some e → e.IsPlain := by
  unfold readExpr?
  split
  · next e hRead =>
      refine Idles.pure fun e' hSome => ?_
      cases hSome
      exact Expr.isPlain_of_ofText hRead
  · exact Idles.giveUp _
  · refine Idles.report_pure _ _ fun e hSome => ?_
    cases hSome

/- The content in front of a divert is a part of the text. -/
theorem readDivert_sublist
    (line : Nat)
    (cs : List Char) :
    (readDivert line cs).Idles fun r => r.1 <+ cs := by
  have hParts := Marked.splitArrows_sublist (topLevel cs)
  rw [chars_topLevel] at hParts
  have hPart (part : List Char)
      (hMem : part ∈ (topLevel cs).splitArrows) :
      part <+ cs :=
    (List.sublist_flatten_of_mem hMem).trans hParts
  unfold readDivert
  split
  · next content rest hSplit =>
      apply Idles.guarded (Idles.report _ _)
      exact Idles.pure (hPart content (by simp [hSplit]))
  · next content _ _ _ hSplit =>
      exact Idles.report_pure _ _
        (hPart content (by simp [hSplit]))
  · exact Idles.pure (List.Sublist.refl _)

end BranchingStory

------------------------------------------------------------
-- Content
------------------------------------------------------------

namespace BranchingStory

open Reading

namespace Reading

/-
  Whether the fragments that a step yields are plain, and
  their alternatives have got their numbers in it.
-/
def Writes
    {α : Type}
    (r : Reading α)
    (fragments : α → List Fragment)
    (allowed : Nat) : Prop :=
  r.Ensures fun d a d' =>
    d.Numbers d' (alternativesIn (fragments a)) allowed ∧
      PlainIn (fragments a)

namespace Writes

variable {α β : Type}
variable {g : β → List Fragment}
variable {n : Nat}

/- A step that yields no alternatives. -/
theorem pure
    {b : β}
    (hNone : alternativesIn (g b) = [])
    (hPlain : PlainIn (g b)) :
    Writes (Pure.pure b) g 0 := by
  apply Ensures.pure
  intro d
  rw [hNone]
  exact ⟨.none (Draft.Precedes.refl d) rfl, hPlain⟩

/- More numbers may be allowed. -/
theorem mono
    {r : Reading β}
    {m : Nat}
    (hWrites : r.Writes g m)
    (hAllowed : m ≤ n) :
    r.Writes g n :=
  Ensures.mono hWrites fun _ _ _ hBoth =>
    ⟨hBoth.1.mono hAllowed, hBoth.2⟩

/- A step without numbers may come first. -/
theorem after
    {r : Reading α}
    {f : α → Reading β}
    {Q : α → Prop}
    (hFirst : r.Idles Q)
    (hSecond : ∀ a, Q a → (f a).Writes g n) :
    (r >>= f).Writes g n := by
  intro d b d'' hRun
  rcases run_bind_ok.mp hRun with
    ⟨a, d', hRunFirst, hRunSecond⟩
  rcases hFirst d a d' hRunFirst with ⟨hAdds, hSame, hValue⟩
  rcases hSecond a hValue d' b d'' hRunSecond with
    ⟨hNumbers, hPlain⟩
  have hBoth := (Draft.Numbers.none hAdds hSame).append hNumbers
  rw [List.nil_append] at hBoth
  exact ⟨hBoth.mono (by omega), hPlain⟩

/- A step without numbers may be left out. -/
theorem guarded
    {c : Prop}
    [Decidable c]
    {r : Reading Unit}
    {f : Unit → Reading β}
    (hFirst : r.Idles fun _ => True)
    (hSecond : (f ()).Writes g n) :
    (if c then r >>= f else f ()).Writes g n := by
  split
  · exact after hFirst fun _ _ => hSecond
  · exact hSecond

end Writes

end Reading

/- Items of an alternative that are written one by one. -/
theorem mapM_writes
    {f : List Char → Reading (List Fragment)}
    (hEach : ∀ cs, (f cs).Writes id cs.length)
    (parts : List (List Char)) :
    (parts.mapM f).Ensures fun d items d' =>
      d.Numbers d'
          ((Fragment.walkItems items).filterMap
            Fragment.alternative?)
          (totalLength parts) ∧
        (∀ e ∈ (Fragment.walkItems items).filterMap
          Fragment.expression?, e.IsPlain) ∧
        items.length = parts.length := by
  induction parts with
  | nil =>
      rw [List.mapM_nil]
      refine Ensures.pure fun d => ?_
      simp only [Fragment.walkItems_nil, List.filterMap_nil]
      refine ⟨.none (Draft.Precedes.refl d) rfl, ?_, rfl⟩
      simp
  | cons cs parts ih =>
      rw [List.mapM_cons]
      intro d items d' hRun
      rcases run_bind_ok.mp hRun with ⟨fs, d₁, hFirst, hRun⟩
      rcases run_bind_ok.mp hRun with ⟨rest, d₂, hRest, hRun⟩
      rcases run_pure_ok.mp hRun with ⟨rfl, rfl⟩
      rcases hEach cs d fs d₁ hFirst with ⟨hNumbers, hPlain⟩
      rcases ih d₁ rest d₂ hRest with
        ⟨hNumbers', hPlain', hLength⟩
      simp only [Fragment.walkItems_cons,
        List.filterMap_append, totalLength_cons,
        List.length_cons, List.forall_mem_append]
      refine ⟨hNumbers.append hNumbers', ⟨hPlain, hPlain'⟩, ?_⟩
      omega

/- Pieces whose texts in braces are written one by one. -/
theorem readPieces_writes
    {line : Nat}
    {braced : List Char → Reading (Option Fragment)}
    (hBraced :
      ∀ inner, (braced inner).Writes Option.toList
        (inner.length + 1))
    (waiting : List Char)
    (ps : List Piece) :
    (readPieces line braced waiting ps).Writes id
      (totalWidth ps) := by
  fun_induction readPieces line braced waiting ps with
  | case1 waiting =>
      exact Writes.pure (alternativesIn_textFragment _)
        (plainIn_textFragment _)
  | case2 waiting c ps ih =>
      simpa [totalWidth, Piece.width] using ih
  | case3 waiting ps ih =>
      simp only [totalWidth, Piece.width, Nat.zero_add]
      exact Writes.after (Idles.report _ _) fun _ _ => ih
  | case4 waiting ps =>
      refine Writes.mono ?_ (Nat.zero_le _)
      refine Writes.after (Idles.report _ _) fun _ _ => ?_
      exact Writes.pure (alternativesIn_textFragment _)
        (plainIn_textFragment _)
  | case5 waiting inner ps ih =>
      intro d r d' hRun
      rcases run_bind_ok.mp hRun with ⟨f, d₁, hFirst, hRun⟩
      rcases run_bind_ok.mp hRun with ⟨fs, d₂, hRest, hRun⟩
      rcases run_pure_ok.mp hRun with ⟨rfl, rfl⟩
      rcases hBraced inner d f d₁ hFirst with
        ⟨hNumbers, hPlain⟩
      rcases ih d₁ fs d₂ hRest with ⟨hNumbers', hPlain'⟩
      simp only [id, alternativesIn_append, plainIn_append,
        alternativesIn_textFragment, List.nil_append,
        plainIn_textFragment, true_and, totalWidth]
      exact ⟨hNumbers.append hNumbers', hPlain, hPlain'⟩

/- A branch of conditional text or an item. -/
theorem readItem_writes
    (line : Nat)
    {content : ContentReader}
    (hContent : ∀ cs, (content cs).Writes id cs.length)
    (cs : List Char) :
    (readItem line content cs).Writes id cs.length := by
  refine Writes.after (readDivert_sublist line cs)
    fun r hPart => ?_
  intro d fs d' hRun
  rcases run_bind_ok.mp hRun with ⟨gs, d₁, hFirst, hRun⟩
  rcases hContent r.1 d gs d₁ hFirst with ⟨hNumbers, hPlain⟩
  have hRest :
      Idles (do
        if r.2 = some [] then
          Reading.report .missingTarget line
        return gs ++ divertTo line r.2)
        fun fs => fs = gs ++ divertTo line r.2 :=
    Idles.guarded (Idles.report _ _) (Idles.pure rfl)
  rcases hRest d₁ fs d' hRun with ⟨hAdds, hSame, rfl⟩
  simp only [id, alternativesIn_append, plainIn_append,
    alternativesIn_divertTo, plainIn_divertTo, and_true]
  exact ⟨(hNumbers.append (.none hAdds hSame)).mono
    hPart.length_le, hPlain⟩

/- A conditional fragment holds what its branches hold. -/
theorem conditional_writes
    {c : Option Expr}
    {t f : List Fragment}
    (hCondition : ∀ e, c = some e → e.IsPlain)
    (hThen : PlainIn t)
    (hElse : PlainIn f) :
    PlainIn (c.map fun c =>
        Fragment.conditional c t f).toList ∧
      ∀ {d d' : Draft} {n : Nat},
        d.Numbers d' (alternativesIn t ++ alternativesIn f) n →
          d.Numbers d' (alternativesIn (c.map fun c =>
            Fragment.conditional c t f).toList) n := by
  cases c with
  | none =>
      refine ⟨by simp, ?_⟩
      intro d d' n hNumbers
      rw [Option.map_none, Option.toList_none,
        alternativesIn_nil]
      exact {
        precedes := hNumbers.precedes
        nodup := List.nodup_nil
        least := by simp
        most := by simp
        filled := by simp
        bounded := hNumbers.bounded }
  | some e =>
      have hPlain := hCondition e rfl
      constructor
      · simp only [PlainIn, Option.map_some,
          Option.toList_some, Fragment.walkAll_singleton,
          Fragment.walk, List.filterMap_cons,
          Fragment.expression?, List.filterMap_append,
          List.forall_mem_cons, List.forall_mem_append]
        exact ⟨hPlain, hThen, hElse⟩
      · intro d d' n hNumbers
        simp only [alternativesIn, Option.map_some,
          Option.toList_some, Fragment.walkAll_singleton,
          Fragment.walk, List.filterMap_cons,
          Fragment.alternative?, List.filterMap_append]
        exact hNumbers

/- Conditional text. -/
theorem readConditional_writes
    {line : Nat}
    {content : ContentReader}
    (hContent : ∀ cs, (content cs).Writes id cs.length)
    (condition : List Char)
    (branches : Marked) :
    (readConditional line content condition
      branches).Writes Option.toList branches.length := by
  refine Writes.after (readExpr?_idles line condition)
    fun c hPlain => ?_
  apply Writes.guarded (Idles.report _ _)
  split
  · intro d r d' hRun
    rcases run_bind_ok.mp hRun with ⟨t, d₁, hThen, hRun⟩
    rcases run_pure_ok.mp hRun with ⟨rfl, rfl⟩
    rcases
        readItem_writes _ hContent branches.chars d t d₁
          hThen with
      ⟨hNumbers, hPlainThen⟩
    rcases
        conditional_writes hPlain hPlainThen plainIn_nil with
      ⟨hAll, hMove⟩
    refine ⟨hMove ?_, hAll⟩
    simpa using hNumbers
  · next yes no hCut =>
      intro d r d' hRun
      rcases run_bind_ok.mp hRun with ⟨t, d₁, hThen, hRun⟩
      rcases run_bind_ok.mp hRun with ⟨f, d₂, hElse, hRun⟩
      rcases run_pure_ok.mp hRun with ⟨rfl, rfl⟩
      rcases
          readItem_writes _ hContent yes.chars d t d₁ hThen with
        ⟨hNumbers, hPlainThen⟩
      rcases
          readItem_writes _ hContent no.chars d₁ f d₂ hElse with
        ⟨hNumbers', hPlainElse⟩
      rcases
          conditional_writes hPlain hPlainThen hPlainElse with
        ⟨hAll, hMove⟩
      have hLength := Marked.length_cut? hCut
      refine ⟨hMove ?_, hAll⟩
      apply (hNumbers.append hNumbers').mono
      simpa using hLength

/- An alternative has at least one item. -/
theorem alternativeParts_pos
    (inner : Marked) :
    0 < (alternativeParts inner).2.length := by
  have hSplit (ms : Marked) :
      0 < (ms.split '|').length := by
    cases ms with
    | nil => simp [Marked.split]
    | cons m ms =>
        rw [Marked.split]
        split
        · simp
        · cases Marked.split '|' ms <;> simp [consToFirst]
  unfold alternativeParts
  split
  · exact hSplit _
  · split
    · exact hSplit _
    · exact hSplit _

/- An alternative. -/
theorem alternative_writes
    {line : Nat}
    {content : ContentReader}
    (hContent : ∀ cs, (content cs).Writes id cs.length)
    (mode : Mode)
    {parts : List (List Char)}
    (hParts : 0 < parts.length) :
    Writes (do
      let items ← parts.mapM (readItem line content)
      let number ← Reading.nextNumber
      return some (Fragment.alternative mode items number))
      Option.toList (totalLength parts + 1) := by
  intro d r d' hRun
  rcases run_bind_ok.mp hRun with ⟨items, d₁, hItems, hRun⟩
  rcases run_bind_ok.mp hRun with ⟨number, d₂, hNumber, hRun⟩
  rcases run_pure_ok.mp hRun with ⟨rfl, rfl⟩
  rw [run_nextNumber] at hNumber
  cases hNumber
  rcases
      mapM_writes (readItem_writes line hContent)
        parts d items d₁ hItems with
    ⟨hNumbers, hPlain, hLength⟩
  constructor
  · simp only [alternativesIn, Option.toList_some,
      Fragment.walkAll_singleton, Fragment.walk,
      List.filterMap_cons, Fragment.alternative?]
    exact hNumbers.number (by omega)
  · simp only [PlainIn, Option.toList_some,
      Fragment.walkAll_singleton, Fragment.walk,
      List.filterMap_cons, Fragment.expression?]
    exact hPlain

/- A text in braces. -/
theorem readBraced_writes
    {line : Nat}
    {content : ContentReader}
    (hContent : ∀ cs, (content cs).Writes id cs.length)
    (inner : List Char) :
    (readBraced line content inner).Writes Option.toList
      (inner.length + 1) := by
  unfold readBraced
  dsimp only
  split
  · refine Writes.mono ?_ (Nat.zero_le _)
    refine Writes.after (Idles.report _ _) fun _ _ => ?_
    exact Writes.pure (by simp) (by simp)
  · split
    · next condition branches hCut =>
        have hLength := Marked.length_cut? hCut
        rw [Marked.length_braceLevel] at hLength
        exact Writes.mono
          (readConditional_writes hContent _ _) (by omega)
    · split
      · have hParts := alternativeParts_sublist (braceLevel inner)
        rw [chars_braceLevel] at hParts
        have hLength := hParts.length_le
        rw [← totalLength_eq] at hLength
        exact Writes.mono
          (alternative_writes hContent _
            (alternativeParts_pos _)) (by omega)
      · refine Writes.mono ?_ (Nat.zero_le _)
        refine Writes.after (readExpr?_idles line inner)
          fun e hPlain => ?_
        cases e with
        | none => exact Writes.pure (by simp) (by simp)
        | some e =>
            refine Writes.pure ?_ ?_
            · simp [alternativesIn, Fragment.walk,
                Fragment.alternative?]
            · simpa [PlainIn, Fragment.walk,
                Fragment.expression?] using hPlain e rfl

/- The content that a text spells out. -/
theorem readFragments_writes
    (line : Nat)
    (cs : List Char) :
    (readFragments line cs).Writes id cs.length := by
  have hWithin (n : Nat) :
      ∀ cs, (readFragmentsWithin line n cs).Writes id
        cs.length := by
    induction n with
    | zero =>
        intro cs
        refine Writes.mono ?_ (Nat.zero_le _)
        exact Writes.pure (by simp) (by simp)
    | succ n ih =>
        intro cs
        exact Writes.mono
          (readPieces_writes (readBraced_writes ih) [] _)
          (totalWidth_pieces_le cs)
  exact hWithin cs.length cs

end BranchingStory

------------------------------------------------------------
-- Lines
------------------------------------------------------------

namespace BranchingStory

open Reading
open scoped List

/- A line of content from its text and its divert. -/
theorem readGlued_writes
    (line : Nat)
    (cs : List Char)
    (target : Option (List Char))
    (tags : List String) :
    (readGlued line cs target tags).Writes
      ContentLine.fragments (cs.length + 1) := by
  intro d l d' hRun
  rcases run_bind_ok.mp hRun with ⟨fs, d₁, hFragments, hRun⟩
  rcases run_pure_ok.mp hRun with ⟨rfl, rfl⟩
  rcases readFragments_writes line _ d fs d₁ hFragments with
    ⟨hNumbers, hPlain⟩
  simp only [alternativesIn_append, plainIn_append,
    alternativesIn_divertTo, plainIn_divertTo,
    List.append_nil, and_true]
  refine ⟨hNumbers.mono ?_, hPlain⟩
  have hGlue := (dropGlue_sublist cs).length_le
  rw [List.length_append]
  split
  · simp only [List.length_cons, List.length_nil]
    omega
  · simp only [List.length_nil]
    omega

/- The body of a line of text. -/
theorem readLine_writes
    (line : Nat)
    (body : List Char) :
    (readLine line body).Writes ContentLine.fragments
      (body.length + 1) := by
  have hTags := splitTags_sublist body
  unfold readLine
  generalize splitTags body = parts at hTags ⊢
  rcases parts with ⟨content, tags⟩
  refine Writes.after (readDivert_sublist line content)
    fun r hPart => ?_
  apply Writes.guarded (Idles.report _ _)
  have hLength := (hPart.trans hTags).length_le
  exact (readGlued_writes line _ _ _).mono (by omega)

/-
  The leading conditions of a choice are plain, and what
  follows them is a part of the text.
-/
theorem readConditions_idles
    (line : Nat)
    (cs : List Char) :
    (readConditions line cs).Idles fun r =>
      (∀ e ∈ r.1, e.IsPlain) ∧ r.2 <+ cs := by
  have hWithin (n : Nat) :
      ∀ cs, (readConditionsWithin line n cs).Idles fun r =>
        (∀ e ∈ r.1, e.IsPlain) ∧ r.2 <+ cs := by
    induction n with
    | zero =>
        intro cs
        exact Idles.pure ⟨by simp, List.Sublist.refl _⟩
    | succ n ih =>
        intro cs
        have hStart := trimStart_sublist cs
        rw [readConditionsWithin]
        split
        · next rest hBrace =>
            rw [hBrace] at hStart
            split
            · exact Idles.report_pure _ _
                ⟨by simp, List.nil_sublist cs⟩
            · next inner rest' hTaken =>
                have hRest : rest' <+ cs :=
                  (List.sublist_append_right _ _).trans
                    ((sublist_of_takeBraced? hTaken).trans
                      ((List.sublist_cons_self _ _).trans
                        hStart))
                refine Idles.bind (readExpr?_idles line inner)
                  fun e hPlain => ?_
                refine Idles.bind (ih rest')
                  fun r hMore => ?_
                refine Idles.pure ⟨fun e' hMem => ?_,
                  hMore.2.trans hRest⟩
                rcases List.mem_append.mp hMem with
                  hMem | hMem
                · exact hPlain e' (Option.mem_toList.mp hMem)
                · exact hMore.1 e' hMem
        · exact Idles.pure ⟨by simp, hStart⟩
  exact hWithin _ cs

/-
  The text before, in and after the brackets of a choice are,
  one after the other, parts of its text.
-/
theorem splitBrackets_sublist
    (line : Nat)
    (cs : List Char) :
    (splitBrackets line cs).Idles fun r =>
      r.1 ++ (r.2.1 ++ r.2.2) <+ cs := by
  have hMismatch :
      Idles (do
        Reading.report .bracketMismatch line
        return (dropBrackets cs, [], []))
        fun r : List Char × List Char × List Char =>
          r.1 ++ (r.2.1 ++ r.2.2) <+ cs := by
    apply Idles.report_pure _ _
    simp [dropBrackets]
  unfold splitBrackets
  dsimp only
  split
  · exact Idles.pure (by simp)
  · split
    · split
      · next head rest hCut =>
          have hParts := Marked.sublist_of_cut? hCut
          rw [chars_topLevel] at hParts
          split
          · next inside tail hCut' =>
              have hParts' := Marked.sublist_of_cut? hCut'
              exact Idles.pure
                ((hParts'.append_left _).trans hParts)
          · exact hMismatch
      · exact hMismatch
    · exact hMismatch

/-
  The body of a choice.  Text ahead of the brackets is read
  for both of its lines.
-/
theorem readChoice_writes
    (line : Nat)
    (sticky : Bool)
    (body : List Char) :
    (readChoice line sticky body).Ensures fun d c d' =>
      d.Numbers d'
          (alternativesIn c.display.fragments ++
            alternativesIn c.output.fragments)
          (2 * body.length + 1) ∧
        PlainIn c.display.fragments ∧
        PlainIn c.output.fragments ∧
        ∀ e ∈ c.conditions, e.IsPlain := by
  intro d c d' hRun
  have hTags := splitTags_sublist body
  unfold readChoice at hRun
  generalize splitTags body = parts at hTags hRun
  rcases parts with ⟨content, tags⟩
  rcases run_bind_ok.mp hRun with
    ⟨⟨es, cs₁⟩, d₁, hFirst, hRun⟩
  rcases readConditions_idles line content d _ d₁ hFirst with
    ⟨hAdds₁, hSame₁, hPlain₁, hRest⟩
  rcases run_bind_ok.mp hRun with
    ⟨⟨cs₂, target⟩, d₂, hDivert, hRun⟩
  rcases readDivert_sublist line cs₁ d₁ _ d₂ hDivert with
    ⟨hAdds₂, hSame₂, hContent⟩
  rcases run_bind_ok.mp hRun with
    ⟨⟨head, inside, tail⟩, d₃, hBrackets, hRun⟩
  rcases splitBrackets_sublist line cs₂ d₂ _ d₃ hBrackets with
    ⟨hAdds₃, hSame₃, hParts⟩
  rcases run_bind_ok.mp hRun with ⟨shown, d₄, hShown, hRun⟩
  rcases readFragments_writes line _ d₃ shown d₄ hShown with
    ⟨hNumbers₄, hPlain₄⟩
  -- A missing target may be reported before the output.
  rcases Idles.run_guarded (Idles.report _ _) hRun with
    ⟨d₅, hAdds₅, hSame₅, hRun⟩
  rcases run_bind_ok.mp hRun with ⟨output, d₆, hOutput, hRun⟩
  rcases run_pure_ok.mp hRun with ⟨rfl, rfl⟩
  rcases readGlued_writes line _ _ _ d₅ output d₆ hOutput with
    ⟨hNumbers₆, hPlain₆⟩
  have hNone :=
    Draft.Numbers.none
      ((hAdds₁.trans hAdds₂).trans hAdds₃)
      (hSame₃.trans (hSame₂.trans hSame₁))
  have hBefore := hNone.append hNumbers₄
  have hAll :=
    hBefore.append
      ((Draft.Numbers.none hAdds₅ hSame₅).append hNumbers₆)
  rw [List.nil_append, List.nil_append] at hAll
  refine ⟨hAll.mono ?_, hPlain₄, hPlain₆, hPlain₁⟩
  have hTrim := (trim_sublist (head ++ inside)).length_le
  have hLength :=
    (hParts.trans (hContent.trans (hRest.trans hTags))).length_le
  simp only [List.length_append] at hTrim hLength ⊢
  omega

/- The body of an assignment. -/
theorem readAssignment_idles
    (line : Nat)
    (body : List Char) :
    (readAssignment line body).Idles fun r =>
      ∀ name e, r = some (name, e) → e.IsPlain := by
  unfold readAssignment
  dsimp only
  split
  · next op value _ _ =>
      refine Idles.bind (readExpr?_idles line value)
        fun r hPlain => ?_
      refine Idles.pure fun name e hSome => ?_
      rcases Option.map_eq_some_iff.mp hSome with
        ⟨e', hRead, hPair⟩
      have hPlain' := hPlain e' hRead
      split at hPair
      · cases hPair
        exact hPlain'
      · cases hPair
        exact ⟨trivial, hPlain'⟩
  · refine Idles.report_pure _ _ fun name e hSome => ?_
    cases hSome

/- The body of a declaration. -/
theorem readDeclaration_idles
    (line : Nat)
    (body : List Char) :
    (readDeclaration line body).Idles fun _ => True := by
  unfold readDeclaration
  split
  · exact Idles.report_pure _ _ trivial
  · dsimp only
    split
    · split
      · exact Idles.pure trivial
      · exact Idles.report_pure _ _ trivial
    · exact Idles.report_pure _ _ trivial

end BranchingStory
