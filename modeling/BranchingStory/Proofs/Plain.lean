import BranchingStory.Expr.Reading
import BranchingStory.Proofs.Outcomes

/-
  This file shows that the literals of an expression that is
  read from text are never diverts.

  Key definitions include:
    * `Expr.IsPlain`
    * `TokenReader.ReadsPlain`

  Key theorems include:
    * `readNested_readsPlain`
    * `Expr.isPlain_of_ofText`
-/

------------------------------------------------------------
-- Plain Expressions
------------------------------------------------------------

namespace BranchingStory

/-
  Whether no literal in an expression is a divert.  Targets
  are written after an arrow and are no literals.
-/
def Expr.IsPlain : Expr → Prop
  | .literal v => v.kind ≠ .divert
  | .unary _ e => IsPlain e
  | .binary _ e f => IsPlain e ∧ IsPlain f
  | _ => True

/- Whether every expression that is read is plain. -/
def TokenReader.ReadsPlain
    (r : TokenReader) : Prop :=
  ∀ ts e rest, r ts = .ok (e, rest) → e.IsPlain

end BranchingStory

------------------------------------------------------------
-- Levels Of Operators
------------------------------------------------------------

namespace BranchingStory

open TokenReader

variable {operand : TokenReader}

/- Operands that are plain make up a plain chain. -/
theorem extendChain_isPlain
    {operator? : Token → Option BinaryOp}
    (hOperand : operand.ReadsPlain)
    (n : Nat)
    {left e : Expr}
    {ts rest : List Token}
    (hLeft : left.IsPlain)
    (hRead :
      extendChain operator? operand n left ts =
        .ok (e, rest)) :
    e.IsPlain := by
  induction n generalizing left ts with
  | zero =>
      rw [extendChain] at hRead
      cases hRead
      exact hLeft
  | succ n ih =>
      cases ts with
      | nil =>
          rw [extendChain] at hRead
          cases hRead
          exact hLeft
      | cons t ts =>
          rw [extendChain] at hRead
          split at hRead
          · cases hRead
            exact hLeft
          · next op hOp =>
              rcases except_bind_ok.mp hRead with
                ⟨⟨right, rest'⟩, hRight, hMore⟩
              have hBoth :
                  (Expr.binary op left right).IsPlain :=
                ⟨hLeft, hOperand ts right rest' hRight⟩
              exact ih hBoth hMore

/- A chain of plain operands is plain. -/
theorem readChain_readsPlain
    (operator? : Token → Option BinaryOp)
    (hOperand : operand.ReadsPlain) :
    ReadsPlain (readChain operator? operand) := by
  intro ts e rest hRead
  rcases except_bind_ok.mp hRead with ⟨p, hLeft, hMore⟩
  exact extendChain_isPlain hOperand _
    (hOperand ts p.1 p.2 hLeft) hMore

/- A plain operand is plain after negative signs. -/
theorem readNegated_readsPlain
    (hOperand : operand.ReadsPlain) :
    ReadsPlain (readNegated operand) := by
  intro ts
  fun_induction readNegated operand ts with
  | case1 ts ih =>
      intro e rest hRead
      rcases except_bind_ok.mp hRead with ⟨p, hNegated, hPair⟩
      cases hPair
      exact ih p.1 p.2 hNegated
  | case2 ts _ => exact hOperand ts

/- A plain operand is plain after any number of "not". -/
theorem readNot_readsPlain
    (hOperand : operand.ReadsPlain) :
    ReadsPlain (readNot operand) := by
  intro ts
  fun_induction readNot operand ts with
  | case1 => exact hOperand []
  | case2 t ts _ ih =>
      intro e rest hRead
      rcases except_bind_ok.mp hRead with ⟨p, hNegated, hPair⟩
      cases hPair
      exact ih p.1 p.2 hNegated
  | case3 t ts _ => exact hOperand (t :: ts)

/- A comparison of plain operands is plain. -/
theorem readComparison_readsPlain
    (hOperand : operand.ReadsPlain) :
    ReadsPlain (readComparison operand) := by
  intro ts e rest hRead
  rcases except_bind_ok.mp hRead with
    ⟨⟨left, rest'⟩, hLeft, hMore⟩
  have hPlain := hOperand ts left rest' hLeft
  cases rest' with
  | nil =>
      cases hMore
      exact hPlain
  | cons t ts' =>
      dsimp only at hMore
      split at hMore
      · cases hMore
        exact hPlain
      · rcases except_bind_ok.mp hMore with
          ⟨⟨right, rest'⟩, hRight, hPair⟩
        have hPlain' := hOperand ts' right rest' hRight
        simp only at hPair
        split at hPair
        · cases hPair
        · cases hPair
          exact ⟨hPlain, hPlain'⟩

/- All levels are plain if primary expressions are. -/
theorem readLevels_readsPlain
    (hPrimary : operand.ReadsPlain) :
    ReadsPlain (readLevels operand) := by
  apply readChain_readsPlain
  apply readChain_readsPlain
  apply readNot_readsPlain
  apply readComparison_readsPlain
  apply readChain_readsPlain
  apply readChain_readsPlain
  exact readNegated_readsPlain hPrimary

end BranchingStory

------------------------------------------------------------
-- Whole Expressions
------------------------------------------------------------

namespace BranchingStory

open TokenReader

/- The value of a number token is no divert. -/
theorem numberValue_kind
    {s : String}
    {v : Value}
    (hRead : numberValue s = .ok v) :
    v.kind ≠ .divert := by
  simp only [numberValue] at hRead
  split at hRead
  · cases hRead
    simp [Value.kind]
  · split at hRead
    · cases hRead
      simp [Value.kind]
    · cases hRead
    · cases hRead

/- A name stands for a truth value or for itself. -/
theorem readName_isPlain
    {line : Nat}
    {s : String}
    {e : Expr}
    (hRead : readName line s = .ok e) :
    e.IsPlain := by
  rw [readName] at hRead
  split at hRead
  · cases hRead
    simp [Expr.IsPlain, Value.kind]
  · split at hRead
    · cases hRead
    · cases hRead
      trivial

/- Primary expressions are plain if those in them are. -/
theorem readPrimary_readsPlain
    {inner : TokenReader}
    (line : Nat)
    (hInner : inner.ReadsPlain) :
    ReadsPlain (readPrimary line inner) := by
  intro ts e rest hRead
  unfold readPrimary at hRead
  split at hRead
  · cases hRead
  · rcases except_bind_ok.mp hRead with ⟨v, hValue, hPair⟩
    cases hPair
    exact numberValue_kind hValue
  · cases hRead
    simp [Expr.IsPlain, Value.kind]
  · cases hRead
  · cases hRead
    trivial
  · cases hRead
  · next ts =>
      rcases except_bind_ok.mp hRead with
        ⟨⟨e', rest'⟩, hWithin, hParen⟩
      simp only at hParen
      split at hParen
      · cases hParen
        exact hInner ts _ _ hWithin
      · cases hParen
  · rcases except_bind_ok.mp hRead with ⟨e', hName, hPair⟩
    cases hPair
    exact readName_isPlain hName
  · cases hRead

/- Expressions are plain however deep they are nested. -/
theorem readNested_readsPlain
    (line depth : Nat) :
    ReadsPlain (readNested line depth) := by
  induction depth with
  | zero =>
      intro ts e rest hRead
      cases hRead
  | succ depth ih =>
      exact readLevels_readsPlain
        (readPrimary_readsPlain line ih)

/- An expression that a text spells out is plain. -/
theorem Expr.isPlain_of_ofText
    {line : Nat}
    {cs : List Char}
    {e : Expr}
    (hRead : Expr.ofText line cs = .ok e) :
    e.IsPlain := by
  rcases except_bind_ok.mp hRead with ⟨ts, _, hTokens⟩
  unfold ofTokens at hTokens
  split at hTokens
  · cases hTokens
  · rcases except_bind_ok.mp hTokens with
      ⟨⟨e', rest⟩, hNested, hEnd⟩
    simp only at hEnd
    split at hEnd
    · cases hEnd
      exact readNested_readsPlain line _ _ _ _ hNested
    · cases hEnd

end BranchingStory
