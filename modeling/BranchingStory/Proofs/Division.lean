import BranchingStory.Proofs.NumericFaults
import Mathlib.Data.Rat.Floor

/-
  This file shows how integers are divided.  The quotient is
  their ratio, truncated toward zero, and the remainder is what
  it leaves of the dividend.  On integers nothing fails but a
  division by zero, at any depth of an expression.

  Key definitions include:
    * `truncate`
    * `IsTruncatedDivision`
    * `Expr.IsOfIntegers`

  Key theorems include:
    * `truncate_ratio`
    * `isTruncatedDivision`
    * `applyBinary_int_error_iff`
    * `Expr.eval_integerDivisionByZero_iff`
    * `Expr.IsOfIntegers.eval_error_iff`
    * `integers_divide_toward_zero`
-/

------------------------------------------------------------
-- Truncation
------------------------------------------------------------

namespace BranchingStory

/- The whole part of a rational number. -/
def truncate
    (x : ℚ) : Int :=
  if 0 ≤ x then ⌊x⌋ else ⌈x⌉

/- Both sides of zero are truncated alike. -/
theorem truncate_neg
    (x : ℚ) :
    truncate (-x) = -truncate x := by
  unfold truncate
  rcases lt_trichotomy x 0 with hNegative | rfl | hPositive
  · rw [if_pos (by linarith), if_neg (not_le.mpr hNegative),
      Int.floor_neg]
  · simp
  · rw [if_neg (by linarith), if_pos hPositive.le,
      Int.ceil_neg]

/- The ratio of two sizes is truncated to their quotient. -/
theorem truncate_sizes
    (m n : Nat) :
    truncate (m / n) = (m / n : Nat) := by
  have hNonneg : (0 : ℚ) ≤ m / n := by positivity
  rw [truncate, if_pos hNonneg, Rat.floor_natCast_div_natCast,
    Int.natCast_ediv]

end BranchingStory

------------------------------------------------------------
-- Quotients
------------------------------------------------------------

namespace BranchingStory

/- The sign of a number other than zero can be changed. -/
theorem quotientSign_neg_left
    {a : Int}
    (hSome : a ≠ 0)
    (b : Int) :
    quotientSign (-a) b = -quotientSign a b := by
  unfold quotientSign
  split <;> split <;> omega

theorem quotientSign_neg_right
    (a : Int)
    {b : Int}
    (hSome : b ≠ 0) :
    quotientSign a (-b) = -quotientSign a b := by
  unfold quotientSign
  split <;> split <;> omega

/- The sign of the dividend is one of the quotient. -/
theorem truncatedQuotient_neg_left
    (a b : Int) :
    truncatedQuotient (-a) b = -truncatedQuotient a b := by
  by_cases hZero : a = 0
  · -- The quotient is zero, so that its sign does not matter.
    subst hZero
    simp [truncatedQuotient]
  · rw [truncatedQuotient, truncatedQuotient,
      quotientSign_neg_left hZero, Int.natAbs_neg,
      Int.mul_neg]

/- The sign of the divisor is one of the quotient. -/
theorem truncatedQuotient_neg_right
    (a b : Int) :
    truncatedQuotient a (-b) = -truncatedQuotient a b := by
  by_cases hZero : b = 0
  · subst hZero
    simp [truncatedQuotient]
  · rw [truncatedQuotient, truncatedQuotient,
      quotientSign_neg_right a hZero, Int.natAbs_neg,
      Int.mul_neg]

/- The quotient of two sizes is the usual one. -/
theorem truncatedQuotient_sizes
    (m n : Nat) :
    truncatedQuotient m n = (m / n : Nat) := by
  have hSign : quotientSign m n = 1 := if_pos (by omega)
  rw [truncatedQuotient, hSign, Int.natAbs_natCast,
    Int.natAbs_natCast, Int.mul_one]

/-
  Whatever divides sizes as usual and keeps the sign of either
  side is the quotient.
-/
theorem eq_truncatedQuotient
    (divide : Int → Int → Int)
    (hLeft : ∀ a b, divide (-a) b = -divide a b)
    (hRight : ∀ a b, divide a (-b) = -divide a b)
    (hSizes : ∀ m n : Nat, divide m n = (m / n : Nat))
    (a b : Int) :
    divide a b = truncatedQuotient a b := by
  rcases a.eq_nat_or_neg with ⟨m, rfl | rfl⟩ <;>
    rcases b.eq_nat_or_neg with ⟨n, rfl | rfl⟩ <;>
    simp only [hLeft, hRight, hSizes,
      truncatedQuotient_neg_left, truncatedQuotient_neg_right,
      truncatedQuotient_sizes]

/- The quotient is the one of `Int.tdiv`. -/
theorem tdiv_eq_truncatedQuotient
    (a b : Int) :
    a.tdiv b = truncatedQuotient a b :=
  eq_truncatedQuotient Int.tdiv Int.neg_tdiv Int.tdiv_neg
    (fun m n => (Int.ofNat_tdiv m n).symm) a b

/- The quotient is the ratio, truncated toward zero. -/
theorem truncate_ratio
    (a b : Int) :
    truncate (a / b) = truncatedQuotient a b := by
  refine eq_truncatedQuotient
    (fun a b : Int => truncate (a / b)) ?_ ?_ ?_ a b
  · intro a b
    rw [Int.cast_neg, neg_div, truncate_neg]
  · intro a b
    rw [Int.cast_neg, div_neg, truncate_neg]
  · intro m n
    exact truncate_sizes m n

end BranchingStory

------------------------------------------------------------
-- Remainders
------------------------------------------------------------

namespace BranchingStory

/-
  The laws of a division that is truncated toward zero.  The
  remainder makes up for what the quotient leaves, is smaller
  than the divisor and on the side of the dividend.
-/
structure IsTruncatedDivision
    (a b q r : Int) : Prop where
  truncated : q = truncate (a / b)
  recovered : a = b * q + r
  smaller : |r| < |b|
  sided : r = 0 ∨ r.sign = a.sign

/- The remainder is the one of `Int.tmod`. -/
theorem truncatedRemainder_eq_tmod
    (a b : Int) :
    truncatedRemainder a b = a.tmod b := by
  rw [truncatedRemainder, ← tdiv_eq_truncatedQuotient,
    Int.tmod_def]

/- The remainder is smaller than the divisor. -/
theorem abs_truncatedRemainder_lt
    (a : Int)
    {b : Int}
    (hSome : b ≠ 0) :
    |truncatedRemainder a b| < |b| := by
  have hSize : a.natAbs % b.natAbs < b.natAbs :=
    Nat.mod_lt _ (Int.natAbs_pos.mpr hSome)
  rw [truncatedRemainder_eq_tmod, Int.abs_eq_natAbs,
    Int.abs_eq_natAbs, Int.natAbs_tmod]
  exact_mod_cast hSize

/- A remainder has the sign of the dividend. -/
theorem sign_truncatedRemainder
    (a b : Int) :
    truncatedRemainder a b = 0 ∨
      (truncatedRemainder a b).sign = a.sign := by
  rw [truncatedRemainder_eq_tmod, Int.sign_tmod]
  by_cases hDivides : b ∣ a
  · exact Or.inl (Int.tmod_eq_zero_of_dvd hDivides)
  · exact Or.inr (if_neg hDivides)

/- Integers are divided as a truncated division has it. -/
theorem isTruncatedDivision
    (a : Int)
    {b : Int}
    (hSome : b ≠ 0) :
    IsTruncatedDivision a b (truncatedQuotient a b)
      (truncatedRemainder a b) where
  truncated := (truncate_ratio a b).symm
  recovered := by
    rw [truncatedRemainder]
    ring
  smaller := abs_truncatedRemainder_lt a hSome
  sided := sign_truncatedRemainder a b

end BranchingStory

------------------------------------------------------------
-- Operations On Integers
------------------------------------------------------------

namespace BranchingStory

variable {op : BinaryOp}
variable {v w : Value}
variable {fault : EvalError}

/- Operations on integers fail if they divide by zero. -/
theorem applyBinary_int_error_iff
    {a b : Int}
    (hLogical : op.isLogical = false) :
    applyBinary op (.int a) (.int b) = .error fault ↔
      fault = .integerDivisionByZero ∧
        op.isDivision = true ∧ b = 0 := by
  cases hArithmetic : op.isArithmetic with
  | true =>
      rw [applyBinary_of_isArithmetic hArithmetic rfl,
        arithmetic, except_map_error]
      exact integerArithmetic_error_iff hArithmetic
  | false =>
      -- Integers can be compared in every way.
      cases op <;> cases hLogical <;> cases hArithmetic <;>
        simp [applyBinary, valuesEqual, Value.extended?,
          BinaryOp.isOrdering, BinaryOp.isDivision,
          Except.map]

/- Floats are divided by zero in a way of their own. -/
theorem floatArithmetic_ne_integerDivisionByZero
    (op : BinaryOp)
    (x y : Float) :
    floatArithmetic op x y ≠ .error .integerDivisionByZero := by
  intro hFault
  unfold floatArithmetic at hFault
  split at hFault
  · cases hFault
  · cases hFault
  · cases hFault
  · split at hFault <;> cases hFault
  · split at hFault
    · cases hFault
    · split at hFault <;> cases hFault

/- Only integers are divided by an integer that is zero. -/
theorem exists_int_of_integerDivisionByZero
    (hLogical : op.isLogical = false)
    (hFault :
      applyBinary op v w = .error .integerDivisionByZero) :
    ∃ a b, v = .int a ∧ w = .int b := by
  by_contra hFloats
  rcases applyBinary_error hLogical rfl hFault with
    ⟨_, _, hArithmetic⟩
  rcases (arithmetic_error_iff hFloats).mp hArithmetic with
    hLeft | ⟨x, _, hRight | ⟨y, _, hDivides⟩⟩
  · cases (toFloat_error_iff.mp hLeft).1
  · cases (toFloat_error_iff.mp hRight).1
  · exact floatArithmetic_ne_integerDivisionByZero op x y
      hDivides

/- The operations that divide an integer by zero. -/
theorem applyBinary_integerDivisionByZero_iff
    (hLogical : op.isLogical = false) :
    applyBinary op v w = .error .integerDivisionByZero ↔
      op.isDivision = true ∧
        ∃ a, v = .int a ∧ w = .int 0 := by
  constructor
  · intro hFault
    rcases exists_int_of_integerDivisionByZero hLogical
        hFault with
      ⟨a, b, rfl, rfl⟩
    rcases (applyBinary_int_error_iff hLogical).mp hFault with
      ⟨_, hDivision, rfl⟩
    exact ⟨hDivision, a, rfl, rfl⟩
  · rintro ⟨hDivision, a, rfl, rfl⟩
    exact (applyBinary_int_error_iff hLogical).mpr
      ⟨rfl, hDivision, rfl⟩

end BranchingStory

------------------------------------------------------------
-- Expressions Of Integers
------------------------------------------------------------

namespace BranchingStory

/-
  Whether an expression is put together from integers alone,
  by operations that fit, and which kind of value it has.
-/
inductive Expr.IsOfIntegers
    (m : Memory) : Expr → Kind → Prop where
  | value
      {e : Expr}
      {n : Int}
      (hValue : e.eval m = .ok (.int n)) :
      IsOfIntegers m e .int
  | not
      {e : Expr}
      {k : Kind}
      (hOperand : IsOfIntegers m e k) :
      IsOfIntegers m (.unary .not e) .bool
  | negate
      {e : Expr}
      (hOperand : IsOfIntegers m e .int) :
      IsOfIntegers m (.unary .negate e) .int
  | binary
      {op : BinaryOp}
      {e f : Expr}
      {l r k : Kind}
      (hLeft : IsOfIntegers m e l)
      (hRight : IsOfIntegers m f r)
      (hResult : op.resultKind? l r = some k) :
      IsOfIntegers m (.binary op e f) k

/-
  Whether an evaluation ends with a value of a kind, or in a
  division by zero.
-/
def DividesAtWorst
    (k : Kind) : Except EvalError Value → Prop
  | .ok v => v.kind = k
  | .error fault => fault = .integerDivisionByZero

variable {m : Memory}
variable {op : BinaryOp}

/- Only "and" and "or" may leave their right side alone. -/
theorem BinaryOp.goesOn_of_isLogical
    (hLogical : op.isLogical = false)
    (v : Value) :
    op.goesOn v = true := by
  cases op <;> first
    | rfl
    | cases hLogical

/- An operation on the value of a kind goes on with it. -/
theorem DividesAtWorst.bind
    {l k : Kind}
    {r : Except EvalError Value}
    {f : Value → Except EvalError Value}
    (hFirst : DividesAtWorst l r)
    (hThen : ∀ v, v.kind = l → DividesAtWorst k (f v)) :
    DividesAtWorst k (r >>= f) := by
  cases r with
  | error fault => exact hFirst
  | ok v => exact hThen v hFirst

/- What comes of integers is an integer or a truth value. -/
theorem Expr.IsOfIntegers.kind
    {e : Expr}
    {k : Kind}
    (hIntegers : e.IsOfIntegers m k) :
    k = .int ∨ k = .bool := by
  induction hIntegers with
  | value hValue => exact Or.inl rfl
  | not hOperand ih => exact Or.inr rfl
  | negate hOperand ih => exact Or.inl rfl
  | @binary op _ _ l r k _ _ hResult ihLeft ihRight =>
      rcases ihLeft with rfl | rfl <;>
        rcases ihRight with rfl | rfl <;>
        cases op <;> cases hResult <;> simp

/- A number that comes of integers is an integer. -/
theorem exists_int_of_isNumeric
    {v : Value}
    (hKind : v.kind = .int ∨ v.kind = .bool)
    (hNumeric : v.kind.isNumeric = true) :
    ∃ n, v = .int n := by
  cases v with
  | int n => exact ⟨n, rfl⟩
  | float x => rcases hKind with hKind | hKind <;> cases hKind
  | _ => cases hNumeric

/- Operations that fit fail if they divide by zero. -/
theorem applyBinary_dividesAtWorst
    {v w : Value}
    {k : Kind}
    (hLogical : op.isLogical = false)
    (hLeft : v.kind = .int ∨ v.kind = .bool)
    (hRight : w.kind = .int ∨ w.kind = .bool)
    (hResult : op.resultKind? v.kind w.kind = some k) :
    DividesAtWorst k (applyBinary op v w) := by
  have hFits :=
    applyBinary_fits (P := fun _ => True) hLogical hResult
  cases hApply : applyBinary op v w with
  | ok u =>
      rw [hApply] at hFits
      exact hFits.kind
  | error fault =>
      rw [hApply] at hFits
      rcases applyBinary_error hLogical hFits hApply with
        ⟨_, hNumbers, _⟩
      rw [Bool.and_eq_true] at hNumbers
      rcases exists_int_of_isNumeric hLeft hNumbers.1 with
        ⟨a, rfl⟩
      rcases exists_int_of_isNumeric hRight hNumbers.2 with
        ⟨b, rfl⟩
      exact ((applyBinary_int_error_iff hLogical).mp hApply).1

namespace Expr

variable {e : Expr}
variable {k : Kind}
variable {fault : EvalError}

/-
  An expression of integers has a value of its kind, unless it
  divides by zero.
-/
theorem IsOfIntegers.eval
    (hIntegers : e.IsOfIntegers m k) :
    DividesAtWorst k (e.eval m) := by
  induction hIntegers with
  | value hValue =>
      rw [hValue]
      rfl
  | not hOperand ih => exact ih.bind fun v _ => rfl
  | negate hOperand ih =>
      refine ih.bind fun v hKind => ?_
      cases v <;> cases hKind
      rfl
  | @binary op e f l r k hLeft hRight hResult ihLeft ihRight =>
      rw [eval_binary_eq]
      refine ihLeft.bind fun v hValue => ?_
      cases hLogical : op.isLogical with
      | true =>
          -- The left side may settle the outcome.
          have hBool :=
            BinaryOp.resultKind?_of_isLogical hLogical hResult
          subst hBool
          split
          · refine ihRight.bind fun w _ => ?_
            rw [settle, if_pos hLogical]
            rfl
          · rfl
      | false =>
          rw [if_pos (BinaryOp.goesOn_of_isLogical hLogical v)]
          refine ihRight.bind fun w hValue' => ?_
          rw [settle, hLogical]
          subst hValue hValue'
          exact applyBinary_dividesAtWorst hLogical
            hLeft.kind hRight.kind hResult

/-
  Whether an expression performs the division of an integer by
  zero, at any depth.
-/
def DividesByZero
    (m : Memory)
    (e : Expr) : Prop :=
  ∃ op a, op.isDivision = true ∧
    e.Performs m op (.int a) (.int 0)

/-
  Any expression fails for a division of integers if and only
  if it performs one by zero.
-/
theorem eval_integerDivisionByZero_iff
    (e : Expr) :
    e.eval m = .error .integerDivisionByZero ↔
      e.DividesByZero m := by
  rw [Expr.eval_error_iff rfl]
  constructor
  · rintro ⟨op, v, w, hPerforms, hFault⟩
    rcases
        (applyBinary_integerDivisionByZero_iff
          hPerforms.isLogical).mp hFault with
      ⟨hDivision, a, rfl, rfl⟩
    exact ⟨op, a, hDivision, hPerforms⟩
  · rintro ⟨op, a, hDivision, hPerforms⟩
    exact ⟨op, _, _, hPerforms,
      (applyBinary_integerDivisionByZero_iff
        hPerforms.isLogical).mpr ⟨hDivision, a, rfl, rfl⟩⟩

/- Expressions of integers fail for no other reason. -/
theorem IsOfIntegers.eval_error_iff
    (hIntegers : e.IsOfIntegers m k) :
    e.eval m = .error fault ↔
      fault = .integerDivisionByZero ∧ e.DividesByZero m := by
  rw [← eval_integerDivisionByZero_iff]
  constructor
  · intro hFault
    have hEval := hIntegers.eval
    rw [hFault] at hEval
    cases hEval
    exact ⟨rfl, hFault⟩
  · rintro ⟨rfl, hFault⟩
    exact hFault

end Expr

end BranchingStory

------------------------------------------------------------
-- Division
------------------------------------------------------------

namespace BranchingStory

variable {m : Memory}
variable {e f : Expr}
variable {a b : Int}

/- Arithmetic of two integers is left to their arithmetic. -/
theorem eval_arithmetic
    {op : BinaryOp}
    (hArithmetic : op.isArithmetic = true)
    (hLeft : e.eval m = .ok (.int a))
    (hRight : f.eval m = .ok (.int b)) :
    (Expr.binary op e f).eval m =
      (integerArithmetic op a b).map .int := by
  have hLogical : op.isLogical = false := by
    cases op <;> first
      | rfl
      | cases hArithmetic
  rw [Expr.eval_binary hLogical, hLeft, hRight]
  exact applyBinary_of_isArithmetic hArithmetic rfl

/- Unless the divisor is zero, there is a quotient. -/
theorem eval_divide
    (hLeft : e.eval m = .ok (.int a))
    (hRight : f.eval m = .ok (.int b))
    (hSome : b ≠ 0) :
    (Expr.binary .divide e f).eval m =
      .ok (.int (truncatedQuotient a b)) := by
  rw [eval_arithmetic rfl hLeft hRight, integerArithmetic,
    if_neg hSome]
  rfl

/- Unless the divisor is zero, there is a remainder. -/
theorem eval_modulo
    (hLeft : e.eval m = .ok (.int a))
    (hRight : f.eval m = .ok (.int b))
    (hSome : b ≠ 0) :
    (Expr.binary .modulo e f).eval m =
      .ok (.int (truncatedRemainder a b)) := by
  rw [eval_arithmetic rfl hLeft hRight]
  dsimp only [integerArithmetic]
  rw [if_neg hSome]
  rfl

/- The sign of an integer can be changed. -/
theorem eval_negate
    (hValue : e.eval m = .ok (.int a)) :
    (Expr.unary .negate e).eval m = .ok (.int (-a)) := by
  rw [Expr.eval, hValue]
  rfl

/- Any operation on two integers fails if it divides by zero. -/
theorem eval_binary_int_error_iff
    {op : BinaryOp}
    {fault : EvalError}
    (hLeft : e.eval m = .ok (.int a))
    (hRight : f.eval m = .ok (.int b)) :
    (Expr.binary op e f).eval m = .error fault ↔
      fault = .integerDivisionByZero ∧
        op.isDivision = true ∧ b = 0 := by
  cases hLogical : op.isLogical with
  | false =>
      rw [Expr.eval_binary hLogical, hLeft, hRight]
      exact applyBinary_int_error_iff hLogical
  | true =>
      have hDivision : op.isDivision = false := by
        cases op <;> first
          | rfl
          | cases hLogical
      rw [Expr.eval_binary_eq, hLeft]
      change (if _ then _ else _) = _ ↔ _
      split
      · rw [hRight]
        change Expr.settle op _ _ = _ ↔ _
        simp [Expr.settle, hLogical, hDivision]
      · simp [pure, Except.pure, hDivision]

/- Operations with one operand never fail on an integer. -/
theorem eval_unary_int_ne_error
    (op : UnaryOp)
    (fault : EvalError)
    (hValue : e.eval m = .ok (.int a)) :
    (Expr.unary op e).eval m ≠ .error fault := by
  intro hFault
  cases op with
  | not =>
      rw [Expr.eval, hValue] at hFault
      cases hFault
  | negate =>
      rw [eval_negate hValue] at hFault
      cases hFault

/-
  Integers are divided toward zero.  Unless the divisor is
  zero, there are a quotient and a remainder that obey the laws
  of such a division, and a sign can be moved between the
  dividend, the divisor and the quotient.  A divisor that is
  zero makes both divisions fail.  No other operation fails on
  integers, and an expression that is put together from them
  fails only if it divides by zero somewhere.
-/
theorem integers_divide_toward_zero
    {m : Memory}
    {e f : Expr}
    {a b : Int}
    (hLeft : e.eval m = .ok (.int a))
    (hRight : f.eval m = .ok (.int b)) :
    (b ≠ 0 → ∃ q r,
      IsTruncatedDivision a b q r ∧
        (Expr.binary .divide e f).eval m = .ok (.int q) ∧
        (Expr.binary .modulo e f).eval m = .ok (.int r) ∧
        (Expr.binary .divide (.unary .negate e) f).eval m =
          .ok (.int (-q)) ∧
        (Expr.binary .divide e (.unary .negate f)).eval m =
          .ok (.int (-q)) ∧
        (Expr.unary .negate (.binary .divide e f)).eval m =
          .ok (.int (-q))) ∧
    (∀ op fault,
      (Expr.binary op e f).eval m = .error fault ↔
        fault = .integerDivisionByZero ∧
          op.isDivision = true ∧ b = 0) ∧
    (∀ op fault, (Expr.unary op e).eval m ≠ .error fault) ∧
    ∀ (g : Expr) (k : Kind), g.IsOfIntegers m k → ∀ fault,
      g.eval m = .error fault ↔
        fault = .integerDivisionByZero ∧
          g.DividesByZero m := by
  refine ⟨?_, ?_, ?_, ?_⟩
  · intro hSome
    have hQuotient := eval_divide hLeft hRight hSome
    have hNegated := eval_divide (eval_negate hLeft) hRight hSome
    have hDivisor := eval_divide hLeft (eval_negate hRight)
      (Int.neg_ne_zero.mpr hSome)
    rw [truncatedQuotient_neg_left] at hNegated
    rw [truncatedQuotient_neg_right] at hDivisor
    exact ⟨_, _, isTruncatedDivision a hSome, hQuotient,
      eval_modulo hLeft hRight hSome, hNegated, hDivisor,
      eval_negate hQuotient⟩
  · intro op fault
    exact eval_binary_int_error_iff hLeft hRight
  · intro op fault
    exact eval_unary_int_ne_error op fault hLeft
  · intro g k hIntegers fault
    exact hIntegers.eval_error_iff

/-
  Minus seven by two, read from its text, and a condition that
  divides by zero on its right side.
-/
theorem integers_divide_toward_zero_variables :
    ∃ (m : Memory) (e f g : Expr),
      Expr.ofText 1 "x / y".toList = .ok (.binary .divide e f) ∧
        Expr.ofText 1
            "x / y < 0 and x % (y - 2) == 0".toList = .ok g ∧
        e.eval m = .ok (.int (-7)) ∧
        f.eval m = .ok (.int 2) ∧
        IsTruncatedDivision (-7) 2 (-3) (-1) ∧
        (Expr.binary .divide e f).eval m = .ok (.int (-3)) ∧
        (Expr.binary .modulo e f).eval m = .ok (.int (-1)) ∧
        g.IsOfIntegers m .bool ∧
        g.eval m = .error .integerDivisionByZero ∧
        g.DividesByZero m := by
  let m : Memory :=
    ⟨⟨[("x", .int (-7)), ("y", .int 2)]⟩, ⟨[]⟩⟩
  let x : Expr := .name "x" 1 none
  let y : Expr := .name "y" 1 none
  let zero : Expr := .literal (.int 0)
  let rest : Expr :=
    .binary .modulo x
      (.binary .subtract y (.literal (.int 2)))
  let g : Expr :=
    .binary .and (.binary .less (.binary .divide x y) zero)
      (.binary .equal rest zero)
  have hX : x.eval m = .ok (.int (-7)) := rfl
  have hY : y.eval m = .ok (.int 2) := rfl
  have hZero : zero.IsOfIntegers m .int := .value rfl
  have hRest : rest.IsOfIntegers m .int :=
    .binary (.value hX)
      (.binary (.value hY) (.value rfl) rfl) rfl
  have hIntegers : g.IsOfIntegers m .bool :=
    .binary
      (.binary (.binary (.value hX) (.value hY) rfl) hZero rfl)
      (.binary hRest hZero rfl) rfl
  have hFault : g.eval m = .error .integerDivisionByZero := by
    decide +kernel
  rcases integers_divide_toward_zero hX hY with
    ⟨hDivides, -, -, hTrees⟩
  rcases hDivides (by decide) with
    ⟨q, r, hLaws, hQuotient, hRemainder, -⟩
  have hQ : q = -3 := by
    have hValue : (Expr.binary .divide x y).eval m =
        .ok (.int (-3)) := by
      decide +kernel
    rw [hValue] at hQuotient
    cases hQuotient
    rfl
  have hR : r = -1 := by
    have hRecovered := hLaws.recovered
    rw [hQ] at hRecovered
    omega
  subst hQ hR
  exact ⟨m, x, y, g, by decide +kernel, by decide +kernel,
    hX, hY, hLaws, hQuotient, hRemainder, hIntegers, hFault,
    ((hTrees g .bool hIntegers _).mp hFault).2⟩

end BranchingStory
