import BranchingStory.Markup.Lines
import BranchingStory.Proofs.Drafts
import BranchingStory.Proofs.Plain
import BranchingStory.Proofs.Relining

/-
  This file reads the same text twice, on one line and on
  another.  The second reading mirrors the first: it yields
  the same on other lines, numbers its alternatives alike,
  reports the same issues on other lines, and gives up over
  the same numbers.  Reminders of the author may have been
  added in between.

  Key definitions include:
    * `Draft.Follows`
    * `Reading.Mirrors`
    * `TokenReader.Mirrors`

  Key theorems include:
    * `Reading.Mirrors.bind`
    * `Expr.ofText_relined`
    * `readFragments_mirrors`
    * `readLine_mirrors`
    * `readChoice_mirrors`
-/

------------------------------------------------------------
-- Drafts That Follow
------------------------------------------------------------

namespace BranchingStory

/- Whether an issue is a reminder of the author. -/
def Issue.isReminder
    (i : Issue) : Bool :=
  i.cause.severity = .todo

/- Whether an issue is more than a reminder. -/
def Issue.isGrave
    (i : Issue) : Bool :=
  !i.isReminder

@[simp] theorem Issue.isReminder_relined
    (f : Nat → Nat)
    (i : Issue) :
    (i.relined f).isReminder = i.isReminder := by
  rw [isReminder, isReminder, relined, Cause.severity_relined]

@[simp] theorem Issue.isGrave_relined
    (f : Nat → Nat)
    (i : Issue) :
    (i.relined f).isGrave = i.isGrave := by
  rw [isGrave, isGrave, isReminder_relined]

/-
  Whether a draft follows another one: it has its issues on
  other lines, maybe with further reminders among them, and as
  many alternatives have been numbered.
-/
structure Draft.Follows
    (f : Nat → Nat)
    (d d' : Draft) : Prop where
  issues : (d.issues.map (Issue.relined f)).Sublist d'.issues
  grave :
    d'.issues.filter Issue.isGrave =
      (d.issues.filter Issue.isGrave).map (Issue.relined f)
  numbered : d'.numbered = d.numbered

namespace Draft.Follows

variable {f : Nat → Nat}
variable {d d' : Draft}

/- Nothing read yet follows nothing read yet. -/
theorem empty :
    Draft.Follows f ⟨[], 0⟩ ⟨[], 0⟩ where
  issues := .slnil
  grave := rfl
  numbered := rfl

/- An issue is put on record in both drafts. -/
theorem report
    (hFollows : d.Follows f d')
    (i : Issue) :
    Draft.Follows f
      { d with issues := d.issues ++ [i] }
      { d' with issues := d'.issues ++ [i.relined f] } where
  issues := by
    rw [List.map_append]
    exact hFollows.issues.append (List.Sublist.refl _)
  grave := by
    rw [List.filter_append, List.filter_append,
      List.map_append, hFollows.grave, List.filter_singleton,
      List.filter_singleton, Issue.isGrave_relined]
    cases i.isGrave <;> rfl
  numbered := hFollows.numbered

/- Reminders are put on record in the second draft only. -/
theorem remind
    (hFollows : d.Follows f d')
    {is : List Issue}
    (hReminders : ∀ i ∈ is, i.isReminder = true) :
    d.Follows f { d' with issues := d'.issues ++ is } where
  issues :=
    hFollows.issues.trans (List.sublist_append_left _ _)
  grave := by
    have hNone : is.filter Issue.isGrave = [] := by
      apply List.filter_eq_nil_iff.mpr
      intro i hMem
      rw [Issue.isGrave, hReminders i hMem]
      decide
    rw [List.filter_append, hNone, List.append_nil,
      hFollows.grave]
  numbered := hFollows.numbered

/- An alternative is numbered in both drafts. -/
theorem number
    (hFollows : d.Follows f d') :
    Draft.Follows f
      { d with numbered := d.numbered + 1 }
      { d' with numbered := d'.numbered + 1 } where
  issues := hFollows.issues
  grave := hFollows.grave
  numbered := by rw [hFollows.numbered]

end Draft.Follows

end BranchingStory

------------------------------------------------------------
-- Readings That Mirror
------------------------------------------------------------

namespace BranchingStory

namespace Reading

variable {α β α' β' γ : Type}
variable {f : Nat → Nat}

/-
  Whether a reading mirrors another one: from a draft that
  follows, it comes to a draft that follows, with the mirrored
  value, or it gives up over the same number.
-/
def Mirrors
    (f : Nat → Nat)
    (ρ : α → α')
    (r : Reading α)
    (r' : Reading α') : Prop :=
  ∀ d d', d.Follows f d' →
    match r.run d with
    | .error n => r'.run d' = .error n
    | .ok (a, e) =>
        ∃ e', r'.run d' = .ok (ρ a, e') ∧ e.Follows f e'

namespace Mirrors

variable {ρ : α → α'}
variable {σ : β → β'}
variable {r : Reading α}
variable {r' : Reading α'}

/- The outcome of a reading that mirrors one that ends well. -/
theorem ok
    (hMirrors : Mirrors f ρ r r')
    {d d' e : Draft}
    (hFollows : d.Follows f d')
    {a : α}
    (hRun : r.run d = .ok (a, e)) :
    ∃ e', r'.run d' = .ok (ρ a, e') ∧ e.Follows f e' := by
  have hBoth := hMirrors d d' hFollows
  rw [hRun] at hBoth
  exact hBoth

/- To yield a value mirrors yielding another one. -/
theorem pure
    {a : α}
    {a' : α'}
    (hSame : a' = ρ a) :
    Mirrors f ρ (Pure.pure a) (Pure.pure a') := by
  intro d d' hFollows
  rw [hSame]
  exact ⟨d', rfl, hFollows⟩

/- Readings that mirror may follow one another. -/
theorem bind
    {g : α → Reading β}
    {g' : α' → Reading β'}
    (hFirst : Mirrors f ρ r r')
    (hThen : ∀ a, Mirrors f σ (g a) (g' (ρ a))) :
    Mirrors f σ (r >>= g) (r' >>= g') := by
  intro d d' hFollows
  have hBoth := hFirst d d' hFollows
  rw [StateT.run_bind, StateT.run_bind]
  cases hRun : r.run d with
  | error n =>
      rw [hRun] at hBoth
      rw [hBoth]
      rfl
  | ok p =>
      rcases p with ⟨a, e⟩
      rw [hRun] at hBoth
      rcases hBoth with ⟨e', hRun', hFollows'⟩
      rw [hRun']
      exact hThen a e e' hFollows'

/- What readings yield may be changed alike. -/
theorem map
    {g : α → β}
    {g' : α' → β'}
    (hFirst : Mirrors f ρ r r')
    (hSame : ∀ a, g' (ρ a) = σ (g a)) :
    Mirrors f σ (g <$> r) (g' <$> r') := by
  rw [map_eq_pure_bind, map_eq_pure_bind]
  exact hFirst.bind fun a => .pure (hSame a)

/- An issue is reported on both lines. -/
theorem report
    {c c' : Cause}
    {line line' : Nat}
    (hCause : c' = c.relined f)
    (hLine : line' = f line) :
    Mirrors f id (Reading.report c line)
      (Reading.report c' line') := by
  intro d d' hFollows
  rw [hCause, hLine]
  exact ⟨_, rfl, hFollows.report ⟨c, line⟩⟩

/- An issue is reported on both lines ahead of a value. -/
theorem report_pure
    {c c' : Cause}
    {line line' : Nat}
    {a : α}
    {a' : α'}
    (hCause : c' = c.relined f)
    (hLine : line' = f line)
    (hSame : a' = ρ a) :
    Mirrors f ρ
      (Reading.report c line >>= fun _ => Pure.pure a)
      (Reading.report c' line' >>= fun _ => Pure.pure a') :=
  (report hCause hLine).bind fun _ => pure hSame

/- The same number is handed out. -/
theorem nextNumber :
    Mirrors f id Reading.nextNumber Reading.nextNumber := by
  intro d d' hFollows
  refine ⟨{ d' with numbered := d'.numbered + 1 }, ?_,
    hFollows.number⟩
  rw [run_nextNumber, hFollows.numbered]
  rfl

/- Both readings give up. -/
theorem giveUp
    (digits : Nat) :
    Mirrors f ρ (Reading.giveUp digits)
      (Reading.giveUp digits) :=
  fun _ _ _ => rfl

/- Whichever of two readings is made. -/
theorem ite
    {c : Prop}
    [Decidable c]
    {s : Reading α}
    {s' : Reading α'}
    (hThen : Mirrors f ρ r r')
    (hElse : Mirrors f ρ s s') :
    Mirrors f ρ (if c then r else s)
      (if c then r' else s') := by
  split
  · exact hThen
  · exact hElse

/- An issue may be reported on both lines before going on. -/
theorem guarded
    {p : Prop}
    [Decidable p]
    {c c' : Cause}
    {line line' : Nat}
    {g : Unit → Reading α}
    {g' : Unit → Reading α'}
    (hCause : c' = c.relined f)
    (hLine : line' = f line)
    (hNext : Mirrors f ρ (g ()) (g' ())) :
    Mirrors f ρ
      (if p then Reading.report c line >>= g else g ())
      (if p then Reading.report c' line' >>= g'
        else g' ()) :=
  ite ((report hCause hLine).bind fun _ => hNext) hNext

/- Readings for each item of a list. -/
theorem forM
    {g : α → Reading PUnit}
    {g' : α' → Reading PUnit}
    {xs : List α}
    (hEach : ∀ x ∈ xs, Mirrors f id (g x) (g' (ρ x))) :
    Mirrors f id (xs.forM g) ((xs.map ρ).forM g') := by
  induction xs with
  | nil => exact .pure rfl
  | cons x xs ih =>
      rw [List.forall_mem_cons] at hEach
      exact hEach.1.bind fun _ => ih hEach.2

/- Readings for each item of one list, and what they yield. -/
theorem mapM
    {g : γ → Reading β}
    {g' : γ → Reading β'}
    (hEach : ∀ x, Mirrors f σ (g x) (g' x))
    (xs : List γ) :
    Mirrors f (List.map σ) (xs.mapM g) (xs.mapM g') := by
  induction xs with
  | nil => exact .pure rfl
  | cons x xs ih =>
      rw [List.mapM_cons, List.mapM_cons]
      exact (hEach x).bind fun _ => ih.bind fun _ => .pure rfl

end Mirrors

end Reading

end BranchingStory

------------------------------------------------------------
-- Expressions
------------------------------------------------------------

namespace BranchingStory

/- What a reader of tokens yields, on other lines. -/
def relinedFirst
    (f : Nat → Nat)
    (p : Expr × List Token) : Expr × List Token :=
  (p.1.relined f, p.2)

/-
  Whether a reader of tokens mirrors another one: it reads the
  same on other lines.
-/
def TokenReader.Mirrors
    (f : Nat → Nat)
    (p q : TokenReader) : Prop :=
  ∀ ts, q ts = (p ts).map (relinedFirst f)

namespace TokenReader.Mirrors

variable {f : Nat → Nat}
variable {p q : TokenReader}

/- What is read after an operand is read alike. -/
theorem bind
    (hSame : TokenReader.Mirrors f p q)
    {g h : Expr × List Token →
      Except SyntaxError (Expr × List Token)}
    (hThen : ∀ x, h (relinedFirst f x) =
      (g x).map (relinedFirst f))
    (ts : List Token) :
    (q ts >>= h) = (p ts >>= g).map (relinedFirst f) := by
  rw [hSame ts]
  cases p ts with
  | error e => rfl
  | ok x => exact hThen x

/- An expression is extended alike, step by step. -/
theorem extendChain
    (hSame : TokenReader.Mirrors f p q)
    (operator? : Token → Option BinaryOp)
    (n : Nat)
    (left : Expr)
    (ts : List Token) :
    BranchingStory.extendChain operator? q n
        (left.relined f) ts =
      (BranchingStory.extendChain operator? p n left ts).map
        (relinedFirst f) := by
  induction n generalizing left ts with
  | zero => rfl
  | succ n ih =>
      cases ts with
      | nil => rfl
      | cons t ts =>
          rw [BranchingStory.extendChain,
            BranchingStory.extendChain]
          cases operator? t with
          | none => rfl
          | some op =>
              exact hSame.bind
                (fun x => ih (.binary op left x.1) x.2) ts

/- A chain of operands is read alike. -/
theorem readChain
    (hSame : TokenReader.Mirrors f p q)
    (operator? : Token → Option BinaryOp) :
    TokenReader.Mirrors f
      (BranchingStory.readChain operator? p)
      (BranchingStory.readChain operator? q) :=
  fun ts => hSame.bind (fun x =>
    hSame.extendChain operator? x.2.length x.1 x.2) ts

/- A negated operand is read alike. -/
theorem readNegated
    (hSame : TokenReader.Mirrors f p q) :
    TokenReader.Mirrors f (BranchingStory.readNegated p)
      (BranchingStory.readNegated q) := by
  intro ts
  fun_induction BranchingStory.readNegated p ts with
  | case1 ts ih =>
      rw [BranchingStory.readNegated, ih]
      cases BranchingStory.readNegated p ts <;> rfl
  | case2 ts hOther =>
      rw [BranchingStory.readNegated]
      · exact hSame ts
      · exact hOther

/- An operand after "not" is read alike. -/
theorem readNot
    (hSame : TokenReader.Mirrors f p q) :
    TokenReader.Mirrors f (BranchingStory.readNot p)
      (BranchingStory.readNot q) := by
  intro ts
  fun_induction BranchingStory.readNot p ts with
  | case1 => exact hSame []
  | case2 t ts hNot ih =>
      rw [BranchingStory.readNot, if_pos hNot, ih]
      cases BranchingStory.readNot p ts <;> rfl
  | case3 t ts hOther =>
      rw [BranchingStory.readNot, if_neg hOther]
      exact hSame (t :: ts)

/- A comparison is read alike. -/
theorem readComparison
    (hSame : TokenReader.Mirrors f p q) :
    TokenReader.Mirrors f (BranchingStory.readComparison p)
      (BranchingStory.readComparison q) := by
  refine fun ts => hSame.bind (fun x => ?_) ts
  rcases x with ⟨left, _ | ⟨t, rest⟩⟩
  · rfl
  · dsimp only [relinedFirst]
    cases comparison? t with
    | none => rfl
    | some op =>
        refine hSame.bind (fun y => ?_) rest
        dsimp only [relinedFirst]
        split <;> rfl

/- All levels of operators are read alike. -/
theorem readLevels
    (hSame : TokenReader.Mirrors f p q) :
    TokenReader.Mirrors f (BranchingStory.readLevels p)
      (BranchingStory.readLevels q) :=
  ((((hSame.readNegated.readChain productOperator?).readChain
    sumOperator?).readComparison.readNot).readChain
      andOperator?).readChain orOperator?

/- A primary expression is read alike. -/
theorem readPrimary
    (hSame : TokenReader.Mirrors f p q)
    (line : Nat) :
    TokenReader.Mirrors f (BranchingStory.readPrimary line p)
      (BranchingStory.readPrimary (f line) q) := by
  intro ts
  fun_cases BranchingStory.readPrimary line p ts with
  | case1 => rfl
  | case2 s ts =>
      rw [BranchingStory.readPrimary]
      cases numberValue s <;> rfl
  | case3 s ts => rfl
  | case4 => rfl
  | case5 s ts => rfl
  | case6 t ts hOther =>
      rw [BranchingStory.readPrimary]
      · rfl
      · exact hOther
  | case7 ts =>
      refine hSame.bind (fun x => ?_) ts
      dsimp only [relinedFirst]
      split <;> rfl
  | case8 s ts =>
      rw [BranchingStory.readPrimary, readName, readName]
      cases boolOfWord? s with
      | some b => rfl
      | none =>
          dsimp only
          split <;> rfl
  | case9 t ts =>
      rw [BranchingStory.readPrimary]
      · rfl
      all_goals assumption

/- Nested expressions are read alike, by their depth. -/
theorem readNested
    (line n : Nat) :
    TokenReader.Mirrors f (BranchingStory.readNested line n)
      (BranchingStory.readNested (f line) n) := by
  induction n with
  | zero => exact fun ts => rfl
  | succ n ih => exact (ih.readPrimary line).readLevels

end TokenReader.Mirrors

namespace Expr

variable (f : Nat → Nat)
variable (line : Nat)

/- Tokens on another line spell out the relined expression. -/
theorem ofTokens_relined
    (ts : List Token) :
    ofTokens (f line) ts =
      (ofTokens line ts).map (relined f) := by
  cases ts with
  | nil => rfl
  | cons t ts =>
      have hSame :=
        TokenReader.Mirrors.readNested (f := f) line
          ((t :: ts).length + 1) (t :: ts)
      simp only [ofTokens, hSame]
      cases readNested line ((t :: ts).length + 1)
          (t :: ts) with
      | error e => rfl
      | ok x =>
          rcases x with ⟨e, _ | ⟨t', rest⟩⟩ <;> rfl

/- A text on another line spells out the relined expression. -/
theorem ofText_relined
    (cs : List Char) :
    ofText (f line) cs = (ofText line cs).map (relined f) := by
  unfold ofText
  cases tokens cs with
  | error e => rfl
  | ok ts => exact ofTokens_relined f line ts

end Expr

end BranchingStory

------------------------------------------------------------
-- Fragments
------------------------------------------------------------

namespace BranchingStory

open Reading

variable {f : Nat → Nat}
variable {line : Nat}

/- An expression is read alike. -/
theorem readExpr?_mirrors
    (cs : List Char) :
    Mirrors f (Option.map (Expr.relined f))
      (readExpr? line cs) (readExpr? (f line) cs) := by
  unfold readExpr?
  rw [Expr.ofText_relined]
  cases Expr.ofText line cs with
  | ok e => exact .pure rfl
  | error fault =>
      have hReport :
          Mirrors f (Option.map (Expr.relined f))
            (do
              Reading.report (.invalidExpression fault
                (String.ofList (trim cs))) line
              return none)
            (do
              Reading.report (.invalidExpression fault
                (String.ofList (trim cs))) (f line)
              return none) :=
        .report_pure rfl rfl rfl
      cases fault
      case longNumber digits => exact .giveUp digits
      all_goals exact hReport

/- The divert of a text is split off alike. -/
theorem readDivert_mirrors
    (cs : List Char) :
    Mirrors f id (readDivert line cs)
      (readDivert (f line) cs) := by
  unfold readDivert
  split
  · exact .guarded rfl rfl (.pure rfl)
  · exact .report_pure rfl rfl rfl
  · exact .pure rfl

/- The divert to a target is on the other line. -/
theorem divertTo_relined
    (target : Option (List Char)) :
    divertTo (f line) target =
      (divertTo line target).map (Fragment.relined f) := by
  fun_cases divertTo line target with
  | case1 c rest =>
      simp [divertTo, Fragment.relined, Divert.relined]
  | case2 target hNone =>
      rw [divertTo]
      · rfl
      · exact hNone

/- Text has no lines. -/
theorem textFragment_relined
    (cs : List Char) :
    (textFragment cs).map (Fragment.relined f) =
      textFragment cs := by
  cases cs with
  | nil => rfl
  | cons c cs => simp [textFragment, Fragment.relined]

/- Pieces are joined and read alike. -/
theorem readPieces_mirrors
    {braced braced' : List Char → Reading (Option Fragment)}
    (hBraced : ∀ inner,
      Mirrors f (Option.map (Fragment.relined f))
        (braced inner) (braced' inner))
    (waiting : List Char)
    (ps : List Piece) :
    Mirrors f (List.map (Fragment.relined f))
      (readPieces line braced waiting ps)
      (readPieces (f line) braced' waiting ps) := by
  fun_induction readPieces line braced waiting ps with
  | case1 waiting =>
      exact .pure (textFragment_relined _).symm
  | case2 waiting c ps ih => exact ih
  | case3 waiting ps ih =>
      exact (Mirrors.report rfl rfl).bind fun _ => ih
  | case4 waiting ps =>
      exact .report_pure rfl rfl (textFragment_relined _).symm
  | case5 waiting inner ps ih =>
      refine (hBraced inner).bind fun g => ?_
      refine ih.bind fun gs => .pure ?_
      rw [List.map_append, List.map_append,
        textFragment_relined]
      cases g <;> rfl

variable {content content' : ContentReader}

/- An item of an alternative is read alike. -/
theorem readItem_mirrors
    (hContent : ∀ cs, Mirrors f (List.map (Fragment.relined f))
      (content cs) (content' cs))
    (cs : List Char) :
    Mirrors f (List.map (Fragment.relined f))
      (readItem line content cs)
      (readItem (f line) content' cs) := by
  refine (readDivert_mirrors cs).bind fun p => ?_
  rcases p with ⟨body, target⟩
  refine (hContent body).bind fun gs => ?_
  refine .guarded rfl rfl (.pure ?_)
  rw [divertTo_relined, List.map_append]

/- Conditional text is read alike. -/
theorem readConditional_mirrors
    (hContent : ∀ cs, Mirrors f (List.map (Fragment.relined f))
      (content cs) (content' cs))
    (condition : List Char)
    (branches : Marked) :
    Mirrors f (Option.map (Fragment.relined f))
      (readConditional line content condition branches)
      (readConditional (f line) content' condition
        branches) := by
  refine (readExpr?_mirrors condition).bind fun c => ?_
  refine .guarded rfl rfl ?_
  cases branches.cut? '|' with
  | none =>
      refine (readItem_mirrors hContent _).bind fun t => ?_
      apply Mirrors.pure
      cases c <;> simp [Fragment.relined]
  | some parts =>
      refine (readItem_mirrors hContent _).bind fun t => ?_
      refine (readItem_mirrors hContent _).bind fun e => ?_
      apply Mirrors.pure
      cases c <;> simp [Fragment.relined]

/- A text in braces is read alike. -/
theorem readBraced_mirrors
    (hContent : ∀ cs, Mirrors f (List.map (Fragment.relined f))
      (content cs) (content' cs))
    (inner : List Char) :
    Mirrors f (Option.map (Fragment.relined f))
      (readBraced line content inner)
      (readBraced (f line) content' inner) := by
  refine .ite (.report_pure rfl rfl rfl) ?_
  cases (braceLevel inner).cut? ':' with
  | some parts =>
      exact readConditional_mirrors hContent parts.1.chars
        parts.2
  | none =>
      refine .ite ?_ ?_
      · refine (Mirrors.mapM (readItem_mirrors hContent)
          _).bind fun items => ?_
        refine Mirrors.nextNumber.bind fun number => ?_
        apply Mirrors.pure
        simp [Fragment.relined]
      · refine (readExpr?_mirrors inner).bind fun e => ?_
        apply Mirrors.pure
        cases e <;> simp [Fragment.relined]

/- Content is read alike, by how deep braces are nested. -/
theorem readFragments_mirrors
    (cs : List Char) :
    Mirrors f (List.map (Fragment.relined f))
      (readFragments line cs) (readFragments (f line) cs) := by
  have hWithin (n : Nat) (cs : List Char) :
      Mirrors f (List.map (Fragment.relined f))
        (readFragmentsWithin line n cs)
        (readFragmentsWithin (f line) n cs) := by
    induction n generalizing cs with
    | zero => exact .pure rfl
    | succ n ih =>
        exact readPieces_mirrors (readBraced_mirrors ih) [] _
  exact hWithin cs.length cs

end BranchingStory

------------------------------------------------------------
-- Lines
------------------------------------------------------------

namespace BranchingStory

open Reading

variable {f : Nat → Nat}
variable {line : Nat}

/- A line of content is read from its parts alike. -/
theorem readGlued_mirrors
    (cs : List Char)
    (target : Option (List Char))
    (tags : List String) :
    Mirrors f (ContentLine.relined f)
      (readGlued line cs target tags)
      (readGlued (f line) cs target tags) := by
  refine (readFragments_mirrors _).bind fun gs => ?_
  apply Mirrors.pure
  rw [ContentLine.relined, Fragment.relinedAll_eq_map,
    List.map_append, divertTo_relined]

/- The body of a line of text is read alike. -/
theorem readLine_mirrors
    (body : List Char) :
    Mirrors f (ContentLine.relined f) (readLine line body)
      (readLine (f line) body) := by
  refine (readDivert_mirrors _).bind fun p => ?_
  exact .guarded rfl rfl (readGlued_mirrors p.1 p.2 _)

/- What conditions yield, on other lines. -/
def relinedConditions
    (f : Nat → Nat)
    (p : List Expr × List Char) : List Expr × List Char :=
  (p.1.map (Expr.relined f), p.2)

/- The conditions of a choice are read alike. -/
theorem readConditions_mirrors
    (cs : List Char) :
    Mirrors f (relinedConditions f) (readConditions line cs)
      (readConditions (f line) cs) := by
  have hWithin (n : Nat) (cs : List Char) :
      Mirrors f (relinedConditions f)
        (readConditionsWithin line n cs)
        (readConditionsWithin (f line) n cs) := by
    induction n generalizing cs with
    | zero => exact .pure rfl
    | succ n ih =>
        rw [readConditionsWithin, readConditionsWithin]
        split
        · next rest hTrim =>
            cases takeBraced? 0 false rest with
            | none =>
                exact .report_pure rfl rfl rfl
            | some parts =>
                refine (readExpr?_mirrors parts.1).bind
                  fun e => ?_
                refine (ih parts.2).bind fun p => .pure ?_
                cases e <;> rfl
        · exact .pure rfl
  exact hWithin (cs.length + 1) cs

/- The text of a choice is split at its brackets alike. -/
theorem splitBrackets_mirrors
    (cs : List Char) :
    Mirrors f id (splitBrackets line cs)
      (splitBrackets (f line) cs) := by
  have hMismatch :
      Mirrors f id
        (do
          Reading.report .bracketMismatch line
          return ((dropBrackets cs, [], []) :
            List Char × List Char × List Char))
        (do
          Reading.report .bracketMismatch (f line)
          return (dropBrackets cs, [], [])) :=
    .report_pure rfl rfl rfl
  refine .ite (.pure rfl) (.ite ?_ hMismatch)
  split
  · split
    · exact .pure rfl
    · exact hMismatch
  · exact hMismatch

/- The body of a choice is read alike. -/
theorem readChoice_mirrors
    (sticky : Bool)
    (body : List Char) :
    Mirrors f (Choice.relined f) (readChoice line sticky body)
      (readChoice (f line) sticky body) := by
  refine (readConditions_mirrors _).bind fun es => ?_
  refine (readDivert_mirrors _).bind fun p => ?_
  refine (splitBrackets_mirrors _).bind fun parts => ?_
  refine (readFragments_mirrors _).bind fun shown => ?_
  have hDisplay (tags : List String) :
      (⟨shown.map (Fragment.relined f), f line, false, false,
          tags⟩ : ContentLine) =
        ContentLine.relined f
          ⟨shown, line, false, false, tags⟩ := by
    rw [ContentLine.relined, Fragment.relinedAll_eq_map]
  dsimp only
  rw [hDisplay, ContentLine.isBlank_relined]
  refine .guarded rfl rfl ?_
  refine (readGlued_mirrors _ _ _).bind fun output => ?_
  exact .pure rfl

/- A declaration is read alike: it yields no line. -/
theorem readDeclaration_mirrors
    (body : List Char) :
    Mirrors f id (readDeclaration line body)
      (readDeclaration (f line) body) := by
  unfold readDeclaration
  split
  · exact .report_pure rfl rfl rfl
  · refine .ite ?_ (.report_pure rfl rfl rfl)
    split
    · exact .pure rfl
    · exact .report_pure rfl rfl rfl

/- What an assignment yields, on other lines. -/
def relinedAssignment
    (f : Nat → Nat)
    (p : String × Expr) : String × Expr :=
  (p.1, p.2.relined f)

/- An assignment is read alike. -/
theorem readAssignment_mirrors
    (body : List Char) :
    Mirrors f (Option.map (relinedAssignment f))
      (readAssignment line body)
      (readAssignment (f line) body) := by
  unfold readAssignment
  dsimp only
  split
  · next op value hName hParts =>
      refine (readExpr?_mirrors value).bind fun e => .pure ?_
      cases e with
      | none => rfl
      | some e => cases op <;> rfl
  · exact .report_pure rfl rfl rfl

end BranchingStory
