import BranchingStory.Proofs.Grammar
import BranchingStory.Proofs.Numerals
import BranchingStory.Proofs.Outcomes
import BranchingStory.Proofs.Plain
import BranchingStory.Proofs.Spelling

/-
  This file shows that what is read as an expression is
  derived by the grammar, and that nothing but an integer with
  too many digits ends the reading at once.

  Key definitions include:
    * `Token.isLong`
    * `readLevel`
    * `Phrase.Accounts`
    * `TokenReader.Derives`

  Key theorems include:
    * `numberValue_of_isWritten`
    * `readNested_derives`
-/

------------------------------------------------------------
-- Numerals
------------------------------------------------------------

namespace BranchingStory

/- Whether a token is an integer with too many digits. -/
def Token.isLong : Token → Bool
  | .number s =>
      !s.toList.contains '.' && maxDigits < s.toList.length
  | _ => false

/- The value of a number token that comes from a text. -/
theorem numberValue_of_isWritten
    {s : String}
    (hWritten : (Token.number s).IsWritten) :
    numberValue s =
      if (Token.number s).isLong then
        .error (.longNumber s.toList.length)
      else .ok (numeralValue s) := by
  rw [numberValue, numeralValue, Token.isLong]
  by_cases hPoint : s.toList.contains '.' = true
  · simp only [hPoint, if_true, Bool.not_true,
      Bool.false_and, Bool.false_eq_true, if_false]
  · rcases IsDotted.isRun hWritten
        (fun hMem => hPoint (List.contains_iff_mem.mpr hMem))
      with ⟨hSome, hDigits⟩
    rw [Bool.not_eq_true] at hPoint
    simp only [hPoint, Bool.false_eq_true, if_false,
      Bool.not_false, Bool.true_and, decide_eq_true_eq,
      (readInt_of_digits hDigits hSome).1]
    by_cases hLong : maxDigits < s.toList.length
    · rw [if_pos hLong, if_pos hLong]
    · rw [if_neg hLong, if_neg hLong]

end BranchingStory

------------------------------------------------------------
-- Operators
------------------------------------------------------------

namespace BranchingStory

/- The operator that a token is at a level. -/
def operatorOf? : Level → Token → Option BinaryOp
  | .or => orOperator?
  | .and => andOperator?
  | .comparison => comparison?
  | .sum => sumOperator?
  | .product => productOperator?
  | _ => fun _ => none

/- The operators are those of the grammar. -/
theorem operatorOf?_eq_some_iff
    {l : Level}
    {t : Token}
    {op : BinaryOp} :
    operatorOf? l t = some op ↔ Joins l t op := by
  constructor
  · intro hOperator
    cases l <;>
      simp only [operatorOf?, orOperator?, andOperator?,
        comparison?, sumOperator?, productOperator?,
        reduceCtorEq] at hOperator <;>
      split at hOperator <;>
      try split at hOperator
    all_goals cases hOperator
    all_goals constructor <;> assumption
  · intro hJoins
    cases hJoins <;>
      simp_all [operatorOf?, orOperator?, andOperator?,
        comparison?, sumOperator?, productOperator?]

/- What negates is what the grammar says. -/
theorem isNotOperator_iff
    {t : Token} :
    isNotOperator t = true ↔ Negates t := by
  constructor
  · intro hNot
    unfold isNotOperator at hNot
    split at hNot
    · exact .bang
    · exact .notWord (of_decide_eq_true hNot)
    · cases hNot
  · intro hNegates
    cases hNegates with
    | bang => rfl
    | notWord hWord => simp [isNotOperator, hWord]

/- The reader of a level, given that of primary phrases. -/
def readLevel
    (primary : TokenReader) : Level → TokenReader
  | .or => readLevels primary
  | .and =>
      readChain andOperator?
        (readNot (readComparison (readSum primary)))
  | .not => readNot (readComparison (readSum primary))
  | .comparison => readComparison (readSum primary)
  | .sum => readSum primary
  | .product =>
      readChain productOperator? (readNegated primary)
  | .negation => readNegated primary
  | .primary => primary

/- A level of chains joins operands of the next level. -/
theorem readLevel_chain
    {l : Level}
    (hChain : l.isChain = true)
    (primary : TokenReader) :
    readLevel primary l =
      readChain (operatorOf? l) (readLevel primary l.next) := by
  cases l <;> first | rfl | cases hChain

end BranchingStory

------------------------------------------------------------
-- What Is Read Is Derived
------------------------------------------------------------

namespace BranchingStory

/-
  Whether a phrase accounts for an expression that was read
  from tokens: it derives what was taken of them, and no
  integer in it is too long.
-/
structure Phrase.Accounts
    {l : Level}
    (p : Phrase l)
    (line : Nat)
    (ts : List Token)
    (e : Expr)
    (rest : List Token) : Prop where
  tokens : ts = p.tokens ++ rest
  expr : p.expr line = e
  short : ∀ t ∈ p.tokens, t.isLong = false

/- A lone phrase of the next level accounts for as much. -/
theorem Phrase.Accounts.lone
    {l : Level}
    {p : Phrase l.next}
    {line : Nat}
    {ts rest : List Token}
    {e : Expr}
    (hWeak : l ≠ .primary)
    (hP : p.Accounts line ts e rest) :
    (Phrase.lone hWeak p).Accounts line ts e rest :=
  ⟨hP.tokens, hP.expr, hP.short⟩

/-
  Whether a reader only reads what the grammar derives, and
  only calls a number too long if there is one.
-/
structure TokenReader.Derives
    (r : TokenReader)
    (line : Nat)
    (l : Level) : Prop where
  ok : ∀ {ts e rest}, (∀ t ∈ ts, t.IsWritten) →
    r ts = .ok (e, rest) →
      ∃ p : Phrase l, p.Accounts line ts e rest
  error : ∀ {ts n}, (∀ t ∈ ts, t.IsWritten) →
    r ts = .error (.longNumber n) →
      ∃ t ∈ ts, t.isLong = true

variable {line : Nat}
variable {l : Level}
variable {operand : TokenReader}

/- Operands of the next level extend a chain of the level. -/
theorem extendChain_ok
    (hChain : l.isChain = true)
    (hOperand : operand.Derives line l.next)
    (n : Nat)
    {ts all rest : List Token}
    {left e : Expr}
    {p : Phrase l}
    (hWritten : ∀ t ∈ ts, t.IsWritten)
    (hLeft : p.Accounts line all left ts)
    (hRead :
      extendChain (operatorOf? l) operand n left ts =
        .ok (e, rest)) :
    ∃ p : Phrase l, p.Accounts line all e rest := by
  induction n generalizing ts left p with
  | zero =>
      cases hRead
      exact ⟨p, hLeft⟩
  | succ n ih =>
      cases ts with
      | nil =>
          cases hRead
          exact ⟨p, hLeft⟩
      | cons t ts =>
          rw [extendChain] at hRead
          rw [List.forall_mem_cons] at hWritten
          split at hRead
          · cases hRead
            exact ⟨p, hLeft⟩
          · next op hOperator =>
              rcases except_bind_ok.mp hRead with
                ⟨⟨right, rest'⟩, hRight, hMore⟩
              rcases hOperand.ok hWritten.2 hRight with ⟨q, hQ⟩
              have hJoins :=
                operatorOf?_eq_some_iff.mp hOperator
              have hJoined :
                  (Phrase.join hChain t op hJoins p q).Accounts
                    line all (.binary op left right) rest' := by
                constructor
                · rw [hLeft.tokens, hQ.tokens, Phrase.tokens]
                  simp
                · rw [Phrase.expr, hLeft.expr, hQ.expr]
                · rw [Phrase.tokens, List.forall_mem_append,
                    List.forall_mem_cons]
                  refine ⟨hLeft.short, ?_, hQ.short⟩
                  cases hJoins <;> rfl
              refine ih ?_ hJoined hMore
              rw [hQ.tokens] at hWritten
              exact (List.forall_mem_append.mp hWritten.2).2

/- Only an operand is called too long in a chain. -/
theorem extendChain_error
    (hOperand : operand.Derives line l.next)
    (n : Nat)
    {digits : Nat}
    {ts : List Token}
    {left : Expr}
    (hWritten : ∀ t ∈ ts, t.IsWritten)
    (hRead :
      extendChain (operatorOf? l) operand n left ts =
        .error (.longNumber digits)) :
    ∃ t ∈ ts, t.isLong = true := by
  induction n generalizing ts left with
  | zero => cases hRead
  | succ n ih =>
      cases ts with
      | nil => cases hRead
      | cons t ts =>
          rw [extendChain] at hRead
          rw [List.forall_mem_cons] at hWritten
          split at hRead
          · cases hRead
          · rcases except_bind_error.mp hRead with
              hRight | ⟨⟨right, rest'⟩, hRight, hMore⟩
            · rcases hOperand.error hWritten.2 hRight with
                ⟨t', hMem, hLong⟩
              exact ⟨t', List.mem_cons_of_mem _ hMem, hLong⟩
            · rcases hOperand.ok hWritten.2 hRight with ⟨q, hQ⟩
              have hRest := hWritten.2
              rw [hQ.tokens, List.forall_mem_append] at hRest
              rcases ih hRest.2 hMore with ⟨t', hMem, hLong⟩
              refine ⟨t', ?_, hLong⟩
              rw [hQ.tokens]
              simp [hMem]

/- A chain reads phrases of its level. -/
theorem readChain_derives
    (hChain : l.isChain = true)
    (hOperand : operand.Derives line l.next) :
    (readChain (operatorOf? l) operand).Derives line l := by
  have hWeak : l ≠ .primary := by
    rintro rfl
    cases hChain
  constructor
  · intro ts e rest hWritten hRead
    rcases except_bind_ok.mp hRead with
      ⟨⟨left, rest'⟩, hLeft, hMore⟩
    rcases hOperand.ok hWritten hLeft with ⟨p, hP⟩
    refine extendChain_ok hChain hOperand _ ?_ (hP.lone hWeak)
      hMore
    rw [hP.tokens, List.forall_mem_append] at hWritten
    exact hWritten.2
  · intro ts n hWritten hRead
    rcases except_bind_error.mp hRead with
      hLeft | ⟨⟨left, rest'⟩, hLeft, hMore⟩
    · exact hOperand.error hWritten hLeft
    · rcases hOperand.ok hWritten hLeft with ⟨p, hP⟩
      rw [hP.tokens, List.forall_mem_append] at hWritten
      rcases extendChain_error hOperand _ hWritten.2 hMore with
        ⟨t, hMem, hLong⟩
      refine ⟨t, ?_, hLong⟩
      rw [hP.tokens]
      exact List.mem_append_right _ hMem

/- Operands after negative signs are read as derived. -/
theorem readNegated_derives
    (hOperand : operand.Derives line .primary) :
    (readNegated operand).Derives line .negation := by
  have hLone {ts rest : List Token} {e : Expr}
      (hWritten : ∀ t ∈ ts, t.IsWritten)
      (hRead : operand ts = .ok (e, rest)) :
      ∃ p : Phrase .negation, p.Accounts line ts e rest := by
    rcases hOperand.ok hWritten hRead with ⟨p, hP⟩
    exact ⟨_, hP.lone (by decide)⟩
  constructor
  · intro ts
    fun_induction readNegated operand ts with
    | case1 ts ih =>
        intro e rest hWritten hRead
        rw [List.forall_mem_cons] at hWritten
        rcases except_bind_ok.mp hRead with
          ⟨⟨e', rest'⟩, hInner, hPair⟩
        cases hPair
        rcases ih hWritten.2 hInner with ⟨p, hP⟩
        refine ⟨.negate p, ?_, ?_, ?_⟩
        · rw [hP.tokens]
          rfl
        · rw [Phrase.expr, hP.expr]
        · rw [Phrase.tokens, List.forall_mem_cons]
          exact ⟨rfl, hP.short⟩
    | case2 ts _ =>
        intro e rest hWritten hRead
        exact hLone hWritten hRead
  · intro ts
    fun_induction readNegated operand ts with
    | case1 ts ih =>
        intro n hWritten hRead
        rw [List.forall_mem_cons] at hWritten
        rcases except_bind_error.mp hRead with
          hInner | ⟨p, _, hPair⟩
        · rcases ih hWritten.2 hInner with ⟨t, hMem, hLong⟩
          exact ⟨t, List.mem_cons_of_mem _ hMem, hLong⟩
        · cases hPair
    | case2 ts _ =>
        intro n hWritten hRead
        exact hOperand.error hWritten hRead

/- Operands after "not" are read as derived. -/
theorem readNot_derives
    (hOperand : operand.Derives line .comparison) :
    (readNot operand).Derives line .not := by
  have hLone {ts rest : List Token} {e : Expr}
      (hWritten : ∀ t ∈ ts, t.IsWritten)
      (hRead : operand ts = .ok (e, rest)) :
      ∃ p : Phrase .not, p.Accounts line ts e rest := by
    rcases hOperand.ok hWritten hRead with ⟨p, hP⟩
    exact ⟨_, hP.lone (by decide)⟩
  constructor
  · intro ts
    fun_induction readNot operand ts with
    | case1 =>
        intro e rest hWritten hRead
        exact hLone hWritten hRead
    | case2 t ts hNot ih =>
        intro e rest hWritten hRead
        rw [List.forall_mem_cons] at hWritten
        rcases except_bind_ok.mp hRead with
          ⟨⟨e', rest'⟩, hInner, hPair⟩
        cases hPair
        rcases ih hWritten.2 hInner with ⟨p, hP⟩
        have hNegates := isNotOperator_iff.mp hNot
        refine ⟨.not t hNegates p, ?_, ?_, ?_⟩
        · rw [hP.tokens]
          rfl
        · rw [Phrase.expr, hP.expr]
        · rw [Phrase.tokens, List.forall_mem_cons]
          refine ⟨?_, hP.short⟩
          cases hNegates <;> rfl
    | case3 t ts _ =>
        intro e rest hWritten hRead
        exact hLone hWritten hRead
  · intro ts
    fun_induction readNot operand ts with
    | case1 =>
        intro n hWritten hRead
        exact hOperand.error hWritten hRead
    | case2 t ts _ ih =>
        intro n hWritten hRead
        rw [List.forall_mem_cons] at hWritten
        rcases except_bind_error.mp hRead with
          hInner | ⟨p, _, hPair⟩
        · rcases ih hWritten.2 hInner with ⟨t', hMem, hLong⟩
          exact ⟨t', List.mem_cons_of_mem _ hMem, hLong⟩
        · cases hPair
    | case3 t ts _ =>
        intro n hWritten hRead
        exact hOperand.error hWritten hRead

/- Comparisons are read as derived. -/
theorem readComparison_derives
    (hOperand : operand.Derives line .sum) :
    (readComparison operand).Derives line .comparison := by
  constructor
  · intro ts e rest hWritten hRead
    rcases except_bind_ok.mp hRead with
      ⟨⟨left, rest'⟩, hLeft, hMore⟩
    rcases hOperand.ok hWritten hLeft with ⟨p, hP⟩
    have hLone :
        ∃ p : Phrase .comparison,
          p.Accounts line ts left rest' :=
      ⟨_, hP.lone (by decide)⟩
    cases rest' with
    | nil =>
        cases hMore
        exact hLone
    | cons t ts' =>
        dsimp only at hMore
        split at hMore
        · cases hMore
          exact hLone
        · next op hOperator =>
            rcases except_bind_ok.mp hMore with
              ⟨⟨right, rest''⟩, hRight, hPair⟩
            rw [hP.tokens, List.forall_mem_append,
              List.forall_mem_cons] at hWritten
            rcases hOperand.ok hWritten.2.2 hRight with ⟨q, hQ⟩
            have hJoins : Joins .comparison t op :=
              operatorOf?_eq_some_iff.mp hOperator
            dsimp only at hPair
            split at hPair
            · cases hPair
            · cases hPair
              refine ⟨.compare t op hJoins p q, ?_, ?_, ?_⟩
              · rw [hP.tokens, hQ.tokens, Phrase.tokens]
                simp
              · rw [Phrase.expr, hP.expr, hQ.expr]
              · rw [Phrase.tokens, List.forall_mem_append,
                  List.forall_mem_cons]
                refine ⟨hP.short, ?_, hQ.short⟩
                cases hJoins <;> rfl
  · intro ts n hWritten hRead
    rcases except_bind_error.mp hRead with
      hLeft | ⟨⟨left, rest'⟩, hLeft, hMore⟩
    · exact hOperand.error hWritten hLeft
    · rcases hOperand.ok hWritten hLeft with ⟨p, hP⟩
      cases rest' with
      | nil => cases hMore
      | cons t ts' =>
          dsimp only at hMore
          split at hMore
          · cases hMore
          · rw [hP.tokens, List.forall_mem_append,
              List.forall_mem_cons] at hWritten
            rcases except_bind_error.mp hMore with
              hRight | ⟨⟨right, rest''⟩, hRight, hPair⟩
            · rcases hOperand.error hWritten.2.2 hRight with
                ⟨t', hMem, hLong⟩
              refine ⟨t', ?_, hLong⟩
              rw [hP.tokens]
              simp [hMem]
            · dsimp only at hPair
              split at hPair
              · cases hPair
              · cases hPair

/- All levels are read as derived if primary phrases are. -/
theorem readLevel_derives
    {primary : TokenReader}
    (hPrimary : primary.Derives line .primary)
    (l : Level) :
    (readLevel primary l).Derives line l := by
  have hChain {l : Level}
      (hChain : l.isChain = true)
      (hNext : (readLevel primary l.next).Derives line l.next) :
      (readLevel primary l).Derives line l := by
    rw [readLevel_chain hChain]
    exact readChain_derives hChain hNext
  have hNegation := readNegated_derives hPrimary
  have hProduct := hChain (l := .product) rfl hNegation
  have hSum := hChain (l := .sum) rfl hProduct
  have hComparison := readComparison_derives hSum
  have hNot := readNot_derives hComparison
  have hAnd := hChain (l := .and) rfl hNot
  have hOr := hChain (l := .or) rfl hAnd
  cases l <;> assumption

/- A name that is read is a truth value or a reference. -/
theorem readName_derives
    {s : String}
    {e : Expr}
    (hRead : readName line s = .ok e) :
    ∃ p : Phrase .primary,
      p.tokens = [.name s] ∧ p.expr line = e := by
  rw [readName, boolOfWord?] at hRead
  split at hRead
  · next b hBool =>
      cases hRead
      have hTruth : isTruth s = true := by
        by_contra hNone
        simp_all [isTruth]
      refine ⟨.truth s hTruth, rfl, ?_⟩
      rw [Phrase.expr]
      split at hBool
      · next hWord =>
          cases hBool
          rw [decide_eq_true hWord]
      · next hWord =>
          split at hBool
          · cases hBool
            rw [decide_eq_false hWord]
          · cases hBool
  · next hNone =>
      split at hRead
      · cases hRead
      · next hKeyword =>
          cases hRead
          have hTruth :
              lowerWord s ≠ "true" ∧ lowerWord s ≠ "false" := by
            split at hNone <;> simp_all
          have hName : isReference s = true := by
            simp_all [isReference, isKeyword]
          exact ⟨.name s hName, rfl, rfl⟩

section Primary

variable {inner : TokenReader}
variable {ts : List Token}

/- A primary expression that is read is derived. -/
theorem readPrimary_ok
    {e : Expr}
    {rest : List Token}
    (hInner : inner.Derives line .or)
    (hWritten : ∀ t ∈ ts, t.IsWritten)
    (hRead : readPrimary line inner ts = .ok (e, rest)) :
    ∃ p : Phrase .primary, p.Accounts line ts e rest := by
  unfold readPrimary at hRead
  split at hRead
  · cases hRead
  · next s ts =>
      rcases except_bind_ok.mp hRead with ⟨v, hValue, hPair⟩
      cases hPair
      rw [numberValue_of_isWritten (List.forall_mem_cons.mp
        hWritten).1] at hValue
      split at hValue
      · cases hValue
      · next hShort =>
          cases hValue
          refine ⟨.number s, rfl, rfl, ?_⟩
          rw [Bool.not_eq_true] at hShort
          simpa [Phrase.tokens] using hShort
  · next s ts =>
      cases hRead
      exact ⟨.quoted s, rfl, rfl,
        by simp [Phrase.tokens, Token.isLong]⟩
  · cases hRead
  · next s ts =>
      cases hRead
      exact ⟨.target s, rfl, rfl,
        by simp [Phrase.tokens, Token.isLong]⟩
  · cases hRead
  · next ts =>
      rcases except_bind_ok.mp hRead with
        ⟨⟨e', rest'⟩, hWithin, hParen⟩
      rw [List.forall_mem_cons] at hWritten
      rcases hInner.ok hWritten.2 hWithin with ⟨p, hP⟩
      dsimp only at hParen
      split at hParen
      · cases hParen
        refine ⟨.parens p, ?_, hP.expr, ?_⟩
        · rw [hP.tokens, Phrase.tokens]
          simp
        · rw [Phrase.tokens, List.forall_mem_cons,
            List.forall_mem_append,
            List.forall_mem_singleton]
          exact ⟨rfl, hP.short, rfl⟩
      · cases hParen
  · next s ts =>
      rcases except_bind_ok.mp hRead with ⟨e', hName, hPair⟩
      cases hPair
      rcases readName_derives hName with ⟨p, hTokens, hExpr⟩
      refine ⟨p, ?_, hExpr, ?_⟩
      · rw [hTokens]
        rfl
      · simp [hTokens, Token.isLong]
  · cases hRead

/- A number is only called too long if it is. -/
theorem readPrimary_error
    {n : Nat}
    (hInner : inner.Derives line .or)
    (hWritten : ∀ t ∈ ts, t.IsWritten)
    (hRead :
      readPrimary line inner ts = .error (.longNumber n)) :
    ∃ t ∈ ts, t.isLong = true := by
  unfold readPrimary at hRead
  split at hRead
  · cases hRead
  · next s ts =>
      rcases except_bind_error.mp hRead with
        hValue | ⟨v, _, hPair⟩
      · rw [numberValue_of_isWritten (List.forall_mem_cons.mp
          hWritten).1] at hValue
        split at hValue
        · next hLong =>
            exact ⟨_, List.mem_cons_self, hLong⟩
        · cases hValue
      · cases hPair
  · cases hRead
  · cases hRead
  · cases hRead
  · cases hRead
  · next ts =>
      rw [List.forall_mem_cons] at hWritten
      rcases except_bind_error.mp hRead with
        hWithin | ⟨⟨e', rest'⟩, _, hParen⟩
      · rcases hInner.error hWritten.2 hWithin with
          ⟨t, hMem, hLong⟩
        exact ⟨t, List.mem_cons_of_mem _ hMem, hLong⟩
      · dsimp only at hParen
        split at hParen
        · cases hParen
        · cases hParen
  · next s ts =>
      rcases except_bind_error.mp hRead with
        hName | ⟨e', _, hPair⟩
      · rw [readName] at hName
        split at hName
        · cases hName
        · split at hName
          · cases hName
          · cases hName
      · cases hPair
  · cases hRead

/- Primary phrases are read as derived. -/
theorem readPrimary_derives
    (hInner : inner.Derives line .or) :
    (readPrimary line inner).Derives line .primary :=
  ⟨readPrimary_ok hInner, readPrimary_error hInner⟩

end Primary

/- Expressions are read as derived, however deep they are. -/
theorem readNested_derives
    (line depth : Nat) :
    (readNested line depth).Derives line .or := by
  induction depth with
  | zero =>
      constructor
      · intro ts e rest _ hRead
        cases hRead
      · intro ts n _ hRead
        cases hRead
  | succ depth ih =>
      exact readLevel_derives (readPrimary_derives ih) .or

end BranchingStory
