import BranchingStory.Proofs.Parsing
import Mathlib.Data.List.TakeWhile

/-
  This file shows that whatever the grammar derives is read,
  and sums up how expressions are read: exactly as derived,
  in one way only, unless an integer is too long.

  Key definitions include:
    * `Phrase.outcome`
    * `Phrase.IsRead`

  Key theorems include:
    * `Phrase.outcome_of_short`
    * `Phrase.outcome_of_long`
    * `Phrase.isRead`
    * `ofText_iff_derives`
-/

------------------------------------------------------------
-- Outcomes Of Phrases
------------------------------------------------------------

namespace BranchingStory

namespace Phrase

variable {l : Level}
variable {line : Nat}

/-
  What reading a phrase comes to: its expression, or the fault
  of the first integer in it that is too long.
-/
@[simp] def outcome
    (line : Nat) {l : Level} :
    Phrase l → Except SyntaxError Expr
  | .lone _ p => p.outcome line
  | .join _ _ op _ left right => do
      let e ← left.outcome line
      let f ← right.outcome line
      return .binary op e f
  | .compare _ op _ left right => do
      let e ← left.outcome line
      let f ← right.outcome line
      return .binary op e f
  | .not _ _ p => do
      let e ← p.outcome line
      return .unary .not e
  | .negate p => do
      let e ← p.outcome line
      return .unary .negate e
  | .number s => do
      let v ← numberValue s
      return .literal v
  | .parens p => p.outcome line
  | .quoted s => .ok (expr line (.quoted s))
  | .truth s hTruth => .ok (expr line (.truth s hTruth))
  | .target s => .ok (expr line (.target s))
  | .name s hName => .ok (expr line (.name s hName))

/- Two operands come to their expressions if both do. -/
theorem outcome_binary
    {l' : Level}
    {op : BinaryOp}
    {p : Phrase l}
    {q : Phrase l'}
    (hP : p.outcome line = .ok (p.expr line))
    (hQ : q.outcome line = .ok (q.expr line)) :
    (do
      let e ← p.outcome line
      let f ← q.outcome line
      return Expr.binary op e f) =
      .ok (.binary op (p.expr line) (q.expr line)) := by
  rw [hP, hQ]
  rfl

/- A phrase without long integers comes to its expression. -/
theorem outcome_of_short
    (p : Phrase l)
    (hWritten : ∀ t ∈ p.tokens, t.IsWritten)
    (hShort : ∀ t ∈ p.tokens, t.isLong = false) :
    p.outcome line = .ok (p.expr line) := by
  induction p with
  | lone hWeak p ih => exact ih hWritten hShort
  | join hChain t op hJoins left right ihLeft ihRight =>
      simp only [tokens, List.forall_mem_append,
        List.forall_mem_cons] at hWritten hShort
      exact outcome_binary (ihLeft hWritten.1 hShort.1)
        (ihRight hWritten.2.2 hShort.2.2)
  | compare t op hJoins left right ihLeft ihRight =>
      simp only [tokens, List.forall_mem_append,
        List.forall_mem_cons] at hWritten hShort
      exact outcome_binary (ihLeft hWritten.1 hShort.1)
        (ihRight hWritten.2.2 hShort.2.2)
  | not t hNegates p ih =>
      rw [tokens, List.forall_mem_cons] at hWritten hShort
      rw [outcome, ih hWritten.2 hShort.2]
      rfl
  | negate p ih =>
      rw [tokens, List.forall_mem_cons] at hWritten hShort
      rw [outcome, ih hWritten.2 hShort.2]
      rfl
  | number s =>
      rw [tokens, List.forall_mem_singleton] at hWritten hShort
      rw [outcome, numberValue_of_isWritten hWritten, hShort]
      rfl
  | parens p ih =>
      simp only [tokens, List.forall_mem_append,
        List.forall_mem_cons] at hWritten hShort
      exact ih hWritten.2.1 hShort.2.1
  | _ => rfl

/- Two operands fail if one of them does. -/
theorem outcome_binary_error
    {l' : Level}
    {op : BinaryOp}
    {p : Phrase l}
    {q : Phrase l'}
    {n : Nat}
    (hEither :
      p.outcome line = .error (.longNumber n) ∨
        (p.outcome line = .ok (p.expr line) ∧
          q.outcome line = .error (.longNumber n))) :
    (do
      let e ← p.outcome line
      let f ← q.outcome line
      return Expr.binary op e f) =
      .error (.longNumber n) := by
  rcases hEither with hP | ⟨hP, hQ⟩
  · rw [hP]
    rfl
  · rw [hP, hQ]
    rfl

/- An operation fails if there is a long integer in it. -/
theorem outcome_binary_of_long
    {l' : Level}
    {p : Phrase l}
    {q : Phrase l'}
    (op : BinaryOp)
    (hWritten : ∀ t ∈ p.tokens, t.IsWritten)
    (hP : (∃ t ∈ p.tokens, t.isLong = true) →
      ∃ n, p.outcome line = .error (.longNumber n))
    (hQ : (∃ t ∈ q.tokens, t.isLong = true) →
      ∃ n, q.outcome line = .error (.longNumber n))
    (hLong : (∃ t ∈ p.tokens, t.isLong = true) ∨
      ∃ t ∈ q.tokens, t.isLong = true) :
    ∃ n, (do
      let e ← p.outcome line
      let f ← q.outcome line
      return Expr.binary op e f) =
      .error (.longNumber n) := by
  by_cases hLeft : ∃ t ∈ p.tokens, t.isLong = true
  · rcases hP hLeft with ⟨n, hN⟩
    exact ⟨n, outcome_binary_error (q := q) (Or.inl hN)⟩
  · rcases hQ (hLong.resolve_left hLeft) with ⟨n, hN⟩
    have hShort : ∀ t ∈ p.tokens, t.isLong = false := by
      simpa using hLeft
    exact ⟨n, outcome_binary_error
      (Or.inr ⟨outcome_of_short p hWritten hShort, hN⟩)⟩

/- A phrase with a long integer comes to its fault. -/
theorem outcome_of_long
    (p : Phrase l)
    (hWritten : ∀ t ∈ p.tokens, t.IsWritten)
    (hLong : ∃ t ∈ p.tokens, t.isLong = true) :
    ∃ n, p.outcome line = .error (.longNumber n) := by
  induction p with
  | lone hWeak p ih => exact ih hWritten hLong
  | join hChain t op hJoins left right ihLeft ihRight =>
      have hFirst : t.isLong = false := by
        cases hJoins <;> rfl
      simp only [tokens, List.forall_mem_append,
        List.forall_mem_cons] at hWritten
      simp only [tokens, List.mem_append, List.mem_cons,
        or_and_right, exists_or, exists_eq_left, hFirst,
        Bool.false_eq_true, false_or] at hLong
      exact outcome_binary_of_long op hWritten.1
        (ihLeft hWritten.1) (ihRight hWritten.2.2) hLong
  | compare t op hJoins left right ihLeft ihRight =>
      have hFirst : t.isLong = false := by
        cases hJoins <;> rfl
      simp only [tokens, List.forall_mem_append,
        List.forall_mem_cons] at hWritten
      simp only [tokens, List.mem_append, List.mem_cons,
        or_and_right, exists_or, exists_eq_left, hFirst,
        Bool.false_eq_true, false_or] at hLong
      exact outcome_binary_of_long op hWritten.1
        (ihLeft hWritten.1) (ihRight hWritten.2.2) hLong
  | not t hNegates p ih =>
      have hFirst : t.isLong = false := by
        cases hNegates <;> rfl
      rw [tokens, List.forall_mem_cons] at hWritten
      simp only [tokens, List.mem_cons, or_and_right, exists_or,
        exists_eq_left, hFirst, Bool.false_eq_true, false_or]
        at hLong
      rcases ih hWritten.2 hLong with ⟨n, hN⟩
      refine ⟨n, ?_⟩
      rw [outcome, hN]
      rfl
  | negate p ih =>
      rw [tokens, List.forall_mem_cons] at hWritten
      simp only [tokens, List.mem_cons, or_and_right, exists_or,
        exists_eq_left, Token.isLong, Bool.false_eq_true,
        false_or] at hLong
      rcases ih hWritten.2 hLong with ⟨n, hN⟩
      refine ⟨n, ?_⟩
      rw [outcome, hN]
      rfl
  | number s =>
      rw [tokens, List.forall_mem_singleton] at hWritten
      simp only [tokens, List.mem_singleton, exists_eq_left]
        at hLong
      refine ⟨s.toList.length, ?_⟩
      rw [outcome, numberValue_of_isWritten hWritten, hLong]
      rfl
  | parens p ih =>
      simp only [tokens, List.forall_mem_append,
        List.forall_mem_cons] at hWritten
      refine ih hWritten.2.1 ?_
      simpa [tokens, Token.isLong] using hLong
  | _ => simp [tokens, Token.isLong] at hLong

end Phrase

end BranchingStory

------------------------------------------------------------
-- What Is Derived Is Read
------------------------------------------------------------

namespace BranchingStory

/- No operator of a level comes where it stops. -/
theorem operatorOf?_of_stops
    {l : Level}
    {t : Token}
    {rest : List Token}
    (hStops : Stops l (t :: rest)) :
    operatorOf? l t = none := by
  cases hOperator : operatorOf? l t with
  | none => rfl
  | some op =>
      exact absurd (operatorOf?_eq_some_iff.mp hOperator)
        hStops.not_joins

/- A chain ends where its level stops. -/
theorem extendChain_stops
    {l : Level}
    {rest : List Token}
    (hStops : Stops l rest)
    (operand : TokenReader)
    (n : Nat)
    (e : Expr) :
    extendChain (operatorOf? l) operand n e rest =
      .ok (e, rest) := by
  cases n with
  | zero => rfl
  | succ n =>
      cases rest with
      | nil => rfl
      | cons t rest =>
          rw [extendChain, operatorOf?_of_stops hStops]

/- No comparison comes where comparisons stop. -/
theorem startsWithComparison_of_stops
    {rest : List Token}
    (hStops : Stops .comparison rest) :
    startsWithComparison rest = false := by
  cases rest with
  | nil => rfl
  | cons t rest =>
      have hNone := operatorOf?_of_stops hStops
      change comparison? t = none at hNone
      rw [startsWithComparison, hNone]
      rfl

section Comparisons

variable {operand : TokenReader}
variable {ts ts' rest : List Token}
variable {x y : Except SyntaxError Expr}

/- An operand that no comparison follows is left as it is. -/
theorem readComparison_lone
    (hOperand : operand ts = x >>= fun e => .ok (e, rest))
    (hStops : startsWithComparison rest = false) :
    readComparison operand ts =
      x >>= fun e => .ok (e, rest) := by
  rw [readComparison, hOperand]
  cases x with
  | error f => rfl
  | ok e =>
      cases rest with
      | nil => rfl
      | cons t rest =>
          rw [startsWithComparison,
            Option.isSome_eq_false_iff,
            Option.isNone_iff_eq_none] at hStops
          change Except.bind (.ok (e, t :: rest)) _ = _
          rw [Except.bind]
          dsimp only
          rw [hStops]
          rfl

/- Two operands that no further comparison follows. -/
theorem readComparison_pair
    {t : Token}
    {op : BinaryOp}
    (hLeft : operand ts = x >>= fun e => .ok (e, t :: ts'))
    (hOperator : comparison? t = some op)
    (hRight : operand ts' = y >>= fun f => .ok (f, rest))
    (hStops : startsWithComparison rest = false) :
    readComparison operand ts =
      (do
        let e ← x
        let f ← y
        return Expr.binary op e f) >>=
          fun e => .ok (e, rest) := by
  rw [readComparison, hLeft]
  cases x with
  | error f => rfl
  | ok e =>
      change Except.bind (.ok (e, t :: ts')) _ = _
      rw [Except.bind]
      dsimp only
      rw [hOperator]
      dsimp only
      rw [hRight]
      cases y with
      | error f => rfl
      | ok f =>
          change Except.bind (.ok (f, rest)) _ = _
          rw [Except.bind]
          dsimp only
          rw [hStops]
          rfl

end Comparisons

/- The reader of a level, given how deep parentheses may be. -/
def readerOf
    (line n : Nat) : Level → TokenReader :=
  readLevel (readPrimary line (readNested line n))

namespace Phrase

variable {l : Level}
variable {line : Nat}

/-
  Whether a phrase is read in front of tokens where it stops.
  The number of its tokens bounds how deep it is nested.
-/
def IsRead
    (line : Nat)
    (p : Phrase l) : Prop :=
  ∀ n rest, p.tokens.length ≤ n → Stops l rest →
    readerOf line n l (p.tokens ++ rest) =
      p.outcome line >>= fun e => .ok (e, rest)

/-
  Whether a chain is read in front of tokens where only its
  operands stop: as far as it goes, ready to be extended.
-/
def IsReadSoFar
    (line : Nat)
    (p : Phrase l) : Prop :=
  ∀ n rest, p.tokens.length ≤ n → Stops l.next rest →
    ∃ m, rest.length ≤ m ∧
      readerOf line n l (p.tokens ++ rest) =
        p.outcome line >>= fun e =>
          extendChain (operatorOf? l) (readerOf line n l.next)
            m e rest

/- A chain that is read so far is read where it stops. -/
theorem IsReadSoFar.isRead
    (hWeak : l ≠ .primary)
    {p : Phrase l}
    (hSoFar : p.IsReadSoFar line) :
    p.IsRead line := by
  intro n rest hLength hStops
  have hRank := Level.rank_next hWeak
  rcases hSoFar n rest hLength (hStops.mono (by omega)) with
    ⟨m, _, hRead⟩
  rw [hRead]
  simp only [extendChain_stops hStops]

/- The first operand of a chain is read as the chain so far. -/
theorem lone_isReadSoFar
    (hWeak : l ≠ .primary)
    (hChain : l.isChain = true)
    {p : Phrase l.next}
    (hRead : p.IsRead line) :
    (lone hWeak p).IsReadSoFar line := by
  intro n rest hLength hStops
  refine ⟨rest.length, Nat.le_refl _, ?_⟩
  have hOperand := hRead n rest hLength hStops
  rw [readerOf] at hOperand ⊢
  rw [readLevel_chain hChain, readChain, tokens, hOperand,
    outcome]
  cases p.outcome line <;> rfl

/- A chain is read so far with one more operand. -/
theorem join_isReadSoFar
    (hChain : l.isChain = true)
    {t : Token}
    {op : BinaryOp}
    (hJoins : Joins l t op)
    {left : Phrase l}
    {right : Phrase l.next}
    (hLeft : left.IsReadSoFar line)
    (hRight : right.IsRead line) :
    (join hChain t op hJoins left right).IsReadSoFar
      line := by
  intro n rest hLength hStops
  have hWeak : l ≠ .primary := by
    rintro rfl
    cases hChain
  have hRank := Level.rank_next hWeak
  simp only [tokens, List.length_append, List.length_cons]
    at hLength
  rcases hLeft n (t :: (right.tokens ++ rest)) (by omega)
      (Stops.cons hJoins (by omega)) with
    ⟨m, hBound, hRead⟩
  cases m with
  | zero => cases hBound
  | succ m =>
      simp only [List.length_cons, List.length_append]
        at hBound
      refine ⟨m, by omega, ?_⟩
      rw [tokens, List.append_assoc, List.cons_append, hRead,
        outcome]
      simp only [extendChain,
        operatorOf?_eq_some_iff.mpr hJoins,
        hRight n rest (by omega) hStops]
      cases left.outcome line with
      | error f => rfl
      | ok e => cases right.outcome line <;> rfl

/- A phrase without an operator of its level is read. -/
theorem lone_isRead
    (hWeak : l ≠ .primary)
    (hChain : l.isChain = false)
    {p : Phrase l.next}
    (hRead : p.IsRead line) :
    (lone hWeak p).IsRead line := by
  intro n rest hLength hStops
  have hRank := Level.rank_next hWeak
  have hOperand := hRead n rest hLength
    (hStops.mono (by omega))
  rcases p.tokens_head with ⟨t, ts, hTokens, hNot, hMinus⟩
  rw [outcome, tokens]
  cases l with
  | not =>
      have hFirst : isNotOperator t = false := by
        rw [← Bool.not_eq_true, isNotOperator_iff]
        exact hNot (by decide)
      rw [← hOperand, hTokens, List.cons_append]
      change readNot (readerOf line n .comparison) _ = _
      rw [readNot, hFirst]
      rfl
  | comparison =>
      exact readComparison_lone hOperand
        (startsWithComparison_of_stops hStops)
  | negation =>
      have hFirst := hMinus (by decide)
      rw [← hOperand, hTokens, List.cons_append]
      change readNegated (readerOf line n .primary) _ = _
      rw [readNegated]
      · rfl
      · intro ts' hSame
        exact hFirst (List.cons.inj hSame).1
  | primary => exact absurd rfl hWeak
  | _ => cases hChain

/- A comparison is read if its operands are. -/
theorem compare_isRead
    {t : Token}
    {op : BinaryOp}
    (hJoins : Joins .comparison t op)
    {left right : Phrase .sum}
    (hLeft : left.IsRead line)
    (hRight : right.IsRead line) :
    (compare t op hJoins left right).IsRead line := by
  intro n rest hLength hStops
  simp only [tokens, List.length_append, List.length_cons]
    at hLength
  have hReadLeft :=
    hLeft n (t :: (right.tokens ++ rest)) (by omega)
      (Stops.cons hJoins (by decide))
  have hReadRight :=
    hRight n rest (by omega) (hStops.mono (by decide))
  rw [tokens, List.append_assoc, List.cons_append, outcome]
  exact readComparison_pair hReadLeft
    (operatorOf?_eq_some_iff.mpr hJoins) hReadRight
    (startsWithComparison_of_stops hStops)

/- A negated phrase is read. -/
theorem not_isRead
    {t : Token}
    (hNegates : Negates t)
    {p : Phrase .not}
    (hRead : p.IsRead line) :
    (not t hNegates p).IsRead line := by
  intro n rest hLength hStops
  rw [tokens, List.length_cons] at hLength
  have hInner := hRead n rest (by omega) hStops
  change readNot _ _ = _ at hInner
  have hFirst := isNotOperator_iff.mpr hNegates
  rw [tokens, List.cons_append, outcome]
  change readNot _ _ = _
  rw [readNot, hFirst, if_pos rfl, hInner]
  cases p.outcome line <;> rfl

/- A phrase after a negative sign is read. -/
theorem negate_isRead
    {p : Phrase .negation}
    (hRead : p.IsRead line) :
    (negate p).IsRead line := by
  intro n rest hLength hStops
  rw [tokens, List.length_cons] at hLength
  have hInner := hRead n rest (by omega) hStops
  change readNegated _ _ = _ at hInner
  rw [tokens, List.cons_append, outcome]
  change readNegated _ _ = _
  rw [readNegated, hInner]
  cases p.outcome line <;> rfl

/- A phrase in parentheses is read. -/
theorem parens_isRead
    {p : Phrase .or}
    (hRead : p.IsRead line) :
    (parens p).IsRead line := by
  intro n rest hLength _
  simp only [tokens, List.length_cons, List.length_append]
    at hLength
  cases n with
  | zero => omega
  | succ n =>
      have hInner := hRead n (.symbol .closeParen :: rest)
        (by omega) (stops_closeParen _ _)
      change readNested line (n + 1) _ = _ at hInner
      rw [tokens, List.cons_append, List.append_assoc, outcome]
      rw [readerOf, readLevel, readPrimary]
      change (readNested line (n + 1) (p.tokens ++
        .symbol .closeParen :: rest) >>= _) = _
      rw [hInner]
      cases p.outcome line <;> rfl

/- A name is read as a truth value or as a reference. -/
theorem readName_of_isTruth
    {s : String}
    (hTruth : isTruth s = true) :
    readName line s =
      .ok (.literal (.bool (lowerWord s = "true"))) := by
  simp only [isTruth, List.mem_cons, List.not_mem_nil,
    or_false, decide_eq_true_eq] at hTruth
  rw [readName, boolOfWord?]
  rcases hTruth with hWord | hWord
  · simp [hWord]
  · simp [hWord]

theorem readName_of_isReference
    {s : String}
    (hName : isReference s = true) :
    readName line s = .ok (.name s line none) := by
  simp only [isReference, List.mem_cons, List.not_mem_nil,
    or_false, not_or, decide_eq_true_eq] at hName
  rcases hName with ⟨hTrue, hFalse, hAnd, hOr, hNot⟩
  simp [readName, boolOfWord?, isKeyword, hTrue, hFalse, hAnd,
    hOr, hNot]

/- Every phrase is read. -/
theorem isRead
    (line : Nat)
    (p : Phrase l) :
    p.IsRead line := by
  -- What is to the left in a chain is only read so far.
  suffices hBoth :
      p.IsRead line ∧
        (l.isChain = true → p.IsReadSoFar line) from hBoth.1
  induction p with
  | lone hWeak p ih =>
      rename_i l
      by_cases hChain : l.isChain = true
      · have hSoFar := lone_isReadSoFar hWeak hChain ih.1
        exact ⟨hSoFar.isRead hWeak, fun _ => hSoFar⟩
      · rw [Bool.not_eq_true] at hChain
        refine ⟨lone_isRead hWeak hChain ih.1, ?_⟩
        intro hChain'
        rw [hChain] at hChain'
        cases hChain'
  | join hChain t op hJoins left right ihLeft ihRight =>
      rename_i l
      have hWeak : l ≠ .primary := by
        rintro rfl
        cases hChain
      have hSoFar :=
        join_isReadSoFar hChain hJoins (ihLeft.2 hChain)
          ihRight.1
      exact ⟨hSoFar.isRead hWeak, fun _ => hSoFar⟩
  | compare t op hJoins left right ihLeft ihRight =>
      refine ⟨compare_isRead hJoins ihLeft.1 ihRight.1, ?_⟩
      rintro ⟨⟩
  | not t hNegates p ih =>
      refine ⟨not_isRead hNegates ih.1, ?_⟩
      rintro ⟨⟩
  | negate p ih =>
      refine ⟨negate_isRead ih.1, ?_⟩
      rintro ⟨⟩
  | parens p ih =>
      refine ⟨parens_isRead ih.1, ?_⟩
      rintro ⟨⟩
  | number s =>
      refine ⟨?_, by rintro ⟨⟩⟩
      intro n rest _ _
      rw [outcome]
      change (numberValue s >>= _) = _
      cases numberValue s <;> rfl
  | truth s hTruth =>
      refine ⟨?_, by rintro ⟨⟩⟩
      intro n rest _ _
      change (readName line s >>= _) = _
      rw [readName_of_isTruth hTruth]
      rfl
  | name s hName =>
      refine ⟨?_, by rintro ⟨⟩⟩
      intro n rest _ _
      change (readName line s >>= _) = _
      rw [readName_of_isReference hName]
      rfl
  | _ =>
      refine ⟨?_, by rintro ⟨⟩⟩
      intro n rest _ _
      rfl

end Phrase

end BranchingStory

------------------------------------------------------------
-- Expressions Of Texts
------------------------------------------------------------

namespace BranchingStory

variable {line : Nat}
variable {cs : List Char}
variable {ts : List Token}

/- A text is read as its tokens are. -/
theorem ofText_of_tokens
    (hTokens : tokens cs = .ok ts) :
    Expr.ofText line cs = Expr.ofTokens line ts := by
  rw [Expr.ofText, hTokens]
  rfl

/- What is derived is what reading it comes to. -/
theorem ofTokens_of_phrase
    (line : Nat)
    (p : Phrase .or) :
    Expr.ofTokens line p.tokens = p.outcome line := by
  have hRead := p.isRead line p.tokens.length []
    (Nat.le_refl _) Stops.nil
  change readNested line (p.tokens.length + 1) _ = _ at hRead
  rw [List.append_nil] at hRead
  rcases p.tokens_head with ⟨t, ts, hTokens, _⟩
  rw [hTokens] at hRead ⊢
  rw [Expr.ofTokens]
  · change (readNested line _ (t :: ts) >>= _) = _
    rw [hRead]
    cases p.outcome line <;> rfl
  · intro hNil
    cases hNil

/- What is read is derived, without integers too long. -/
theorem phrase_of_ofTokens
    (hWritten : ∀ t ∈ ts, t.IsWritten)
    {e : Expr}
    (hRead : Expr.ofTokens line ts = .ok e) :
    ∃ p : Phrase .or, p.tokens = ts ∧ p.expr line = e ∧
      ∀ t ∈ ts, t.isLong = false := by
  unfold Expr.ofTokens at hRead
  split at hRead
  · cases hRead
  · rcases except_bind_ok.mp hRead with
      ⟨⟨e', rest⟩, hNested, hEnd⟩
    rcases (readNested_derives line _).ok hWritten hNested with
      ⟨p, hP⟩
    dsimp only at hEnd
    split at hEnd
    · cases hEnd
      have hTokens := hP.tokens
      rw [List.append_nil] at hTokens
      refine ⟨p, hTokens.symm, hP.expr, ?_⟩
      rw [hTokens]
      exact hP.short
    · cases hEnd

/- Only an integer that is too long is called too long. -/
theorem isLong_of_ofTokens
    (hWritten : ∀ t ∈ ts, t.IsWritten)
    {n : Nat}
    (hRead : Expr.ofTokens line ts = .error (.longNumber n)) :
    ∃ t ∈ ts, t.isLong = true := by
  unfold Expr.ofTokens at hRead
  split at hRead
  · cases hRead
  · rcases except_bind_error.mp hRead with
      hNested | ⟨⟨e, rest⟩, _, hEnd⟩
    · exact (readNested_derives line _).error hWritten hNested
    · dsimp only at hEnd
      split at hEnd
      · cases hEnd
      · cases hEnd

/-
  A text that splits into tokens is read as an expression if
  and only if the grammar derives the expression from the
  tokens, and no integer among them is too long.  The fault of
  a long integer is raised only if there is one, and always if
  the grammar derives the tokens.  The derivation is unique.
-/
theorem ofText_iff_derives
    (line : Nat)
    (hTokens : tokens cs = .ok ts) :
    (∀ e, Expr.ofText line cs = .ok e ↔
      (∃ p : Phrase .or, p.tokens = ts ∧ p.expr line = e) ∧
        ∀ t ∈ ts, t.isLong = false) ∧
    (∀ n, Expr.ofText line cs = .error (.longNumber n) →
      ∃ t ∈ ts, t.isLong = true) ∧
    (∀ p : Phrase .or, p.tokens = ts →
      (∃ t ∈ ts, t.isLong = true) →
        ∃ n, Expr.ofText line cs =
          .error (.longNumber n)) ∧
    ∀ p q : Phrase .or, p.tokens = ts → q.tokens = ts →
      p = q := by
  have hWritten := (spelled_of_tokens hTokens).isWritten
  simp only [ofText_of_tokens hTokens]
  refine ⟨?_, ?_, ?_, ?_⟩
  · intro e
    constructor
    · intro hRead
      rcases phrase_of_ofTokens hWritten hRead with
        ⟨p, hP, hExpr, hShort⟩
      exact ⟨⟨p, hP, hExpr⟩, hShort⟩
    · rintro ⟨⟨p, rfl, rfl⟩, hShort⟩
      rw [ofTokens_of_phrase]
      exact p.outcome_of_short hWritten hShort
  · intro n hRead
    exact isLong_of_ofTokens hWritten hRead
  · rintro p rfl hLong
    rw [ofTokens_of_phrase]
    exact p.outcome_of_long hWritten hLong
  · rintro p q rfl hQ
    exact Phrase.tokens_injective hQ.symm

/- An expression with an operator of nearly every level. -/
theorem ofText_iff_derives_levels :
    ∃ ts e,
      tokens "not a < -1 + 2 * (b) or c".toList = .ok ts ∧
        Expr.ofText 1 "not a < -1 + 2 * (b) or c".toList =
          .ok e ∧
        (∃ p : Phrase .or, p.tokens = ts ∧ p.expr 1 = e) ∧
        ∀ p q : Phrase .or, p.tokens = ts → q.tokens = ts →
          p = q := by
  have hCheck :
      (match tokens "not a < -1 + 2 * (b) or c".toList,
          Expr.ofText 1
            "not a < -1 + 2 * (b) or c".toList with
        | .ok _, .ok _ => true
        | _, _ => false) = true := by
    decide +kernel
  cases hTokens :
      tokens "not a < -1 + 2 * (b) or c".toList with
  | error f =>
      rw [hTokens] at hCheck
      cases hCheck
  | ok ts =>
      cases hRead :
          Expr.ofText 1
            "not a < -1 + 2 * (b) or c".toList with
      | error f =>
          rw [hTokens, hRead] at hCheck
          cases hCheck
      | ok e =>
          have hAll := ofText_iff_derives 1 hTokens
          exact ⟨ts, e, rfl, rfl, ((hAll.1 e).mp hRead).1,
            hAll.2.2.2⟩

/- A run of digits is one token. -/
theorem tokens_of_digits
    (hDigits : ∀ c ∈ cs, isDigit c = true)
    (hSome : cs ≠ []) :
    tokens cs = .ok [.number (String.ofList cs)] := by
  have hWritten :
      (Token.number (String.ofList cs)).IsWritten := by
    rw [Token.IsWritten, String.toList_ofList]
    exact .run ⟨hSome, hDigits⟩
  have hTokens := (Lexes.token hWritten).tokens_eq
  rwa [Token.chars, Token.text, String.toList_ofList] at hTokens

/-
  A run of digits alone is derived by the grammar, however
  long it is, and read unless it is too long.
-/
theorem ofText_of_digits
    (line : Nat)
    (hDigits : ∀ c ∈ cs, isDigit c = true)
    (hSome : cs ≠ []) :
    (∃ p : Phrase .or,
      tokens cs = .ok p.tokens ∧
        p.expr line =
          .literal (numeralValue (String.ofList cs))) ∧
    Expr.ofText line cs =
      if maxDigits < cs.length then
        .error (.longNumber cs.length)
      else
        .ok (.literal (numeralValue (String.ofList cs))) := by
  have hTokens := tokens_of_digits hDigits hSome
  have hWritten := (spelled_of_tokens hTokens).isWritten
  rw [List.forall_mem_singleton] at hWritten
  have hPoint : cs.contains '.' = false := by
    rw [← Bool.not_eq_true, List.contains_iff_mem]
    intro hMem
    exact absurd (hDigits '.' hMem) (by decide)
  generalize hP :
    (Phrase.number (String.ofList cs)).atLevel .or = p
  have hSame : p.tokens = [.number (String.ofList cs)] := by
    rw [← hP, Phrase.tokens_atLevel, Phrase.tokens]
  refine ⟨⟨p, by rw [hSame, hTokens], ?_⟩, ?_⟩
  · rw [← hP, Phrase.expr_atLevel, Phrase.expr]
  · have hOutcome :
        p.outcome line =
          numberValue (String.ofList cs) >>= fun v =>
            .ok (.literal v) := by
      rw [← hP]
      rfl
    rw [ofText_of_tokens hTokens, ← hSame,
      ofTokens_of_phrase, hOutcome,
      numberValue_of_isWritten hWritten, Token.isLong,
      String.toList_ofList, hPoint]
    simp only [Bool.not_false, Bool.true_and,
      decide_eq_true_eq]
    split <;> rfl

/-
  One digit too many: the grammar derives the number, and it
  is not read.
-/
theorem ofText_refuses_long_number :
    ∃ p : Phrase .or,
      tokens (List.replicate 4301 '1') = .ok p.tokens ∧
        Expr.ofText 1 (List.replicate 4301 '1') ≠
          .ok (p.expr 1) ∧
        Expr.ofText 1 (List.replicate 4301 '1') =
          .error (.longNumber 4301) := by
  have hDigits :
      ∀ c ∈ List.replicate 4301 '1', isDigit c = true := by
    intro c hMem
    rw [List.eq_of_mem_replicate hMem]
    decide
  have hSome : List.replicate 4301 '1' ≠ [] := by
    apply List.ne_nil_of_length_pos
    rw [List.length_replicate]
    decide
  rcases ofText_of_digits 1 hDigits hSome with
    ⟨⟨p, hTokens, _⟩, hRead⟩
  rw [List.length_replicate, if_pos (by decide)] at hRead
  refine ⟨p, hTokens, ?_, hRead⟩
  rw [hRead]
  intro hSame
  cases hSame

end BranchingStory
