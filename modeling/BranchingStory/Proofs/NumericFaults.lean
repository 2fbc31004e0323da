import BranchingStory.Console.Player
import BranchingStory.Proofs.Faults
import BranchingStory.Proofs.FloatRange

/-
  This file finds the expressions whose numbers get out of
  hand: those that mix an integer beyond the floats with a
  float, or divide an infinity with remainder.  They are all
  that can stop a story by a fault that it does not answer
  for, together with integers too long to be shown.

  Key definitions include:
    * `Expr.Performs`
    * `BinaryOp.Overreaches`
    * `Expr.Overreaches`
    * `PlayError.IsNumberFault`

  Key theorems include:
    * `Expr.eval_error_iff`
    * `applyBinary_error_iff`
    * `Expr.eval_unguarded_iff`
    * `laws_of_numbers`
    * `resume_numberFault`
-/

------------------------------------------------------------
-- Performed Operations
------------------------------------------------------------

namespace BranchingStory

/-
  Whether an operation goes on to its right side after a value
  of its left side.
-/
def BinaryOp.goesOn
    (op : BinaryOp)
    (v : Value) : Bool :=
  match op with
  | .and => v.truthy
  | .or => !v.truthy
  | _ => true

/-
  The operations on two values that an expression performs
  when it is evaluated.  What "and" and "or" leave alone is
  not performed.
-/
inductive Expr.Performs
    (m : Memory) : Expr → BinaryOp → Value → Value → Prop where
  | apply
      {op : BinaryOp}
      {e f : Expr}
      {v w : Value}
      (hLogical : op.isLogical = false)
      (hLeft : e.eval m = .ok v)
      (hRight : f.eval m = .ok w) :
      Performs m (.binary op e f) op v w
  | operand
      {sign : UnaryOp}
      {op : BinaryOp}
      {e : Expr}
      {v w : Value}
      (hOperand : Performs m e op v w) :
      Performs m (.unary sign e) op v w
  | left
      {outer op : BinaryOp}
      {e f : Expr}
      {v w : Value}
      (hLeft : Performs m e op v w) :
      Performs m (.binary outer e f) op v w
  | right
      {outer op : BinaryOp}
      {e f : Expr}
      {u v w : Value}
      (hLeft : e.eval m = .ok u)
      (hGoesOn : outer.goesOn u = true)
      (hRight : Performs m f op v w) :
      Performs m (.binary outer e f) op v w

namespace Expr

variable {m : Memory}

/- What is done with the values of the two sides. -/
def settle
    (op : BinaryOp)
    (v w : Value) : Except EvalError Value :=
  if op.isLogical then .ok (.bool w.truthy)
  else applyBinary op v w

/- The right side is evaluated after the left, if at all. -/
theorem eval_binary_eq
    (op : BinaryOp)
    (e f : Expr) :
    (Expr.binary op e f).eval m = (do
      let v ← e.eval m
      if op.goesOn v then
        let w ← f.eval m
        settle op v w
      else return .bool v.truthy) := by
  cases hLogical : op.isLogical with
  | false =>
      rw [eval_binary hLogical]
      cases op <;> cases hLogical <;> rfl
  | true =>
      cases op <;> cases hLogical
      · simp only [eval, BinaryOp.goesOn, settle]
        refine congrArg _ (funext fun v => ?_)
        rcases Bool.eq_false_or_eq_true v.truthy with
          hTruthy | hTruthy
        · simp only [hTruthy]
          rfl
        · simp only [hTruthy]
          rfl
      · simp only [eval, BinaryOp.goesOn, settle]
        refine congrArg _ (funext fun v => ?_)
        rcases Bool.eq_false_or_eq_true v.truthy with
          hTruthy | hTruthy
        · simp only [hTruthy]
          rfl
        · simp only [hTruthy]
          rfl

/- An expression fails as an operation that it performs. -/
theorem Performs.eval_error
    {e : Expr}
    {op : BinaryOp}
    {v w : Value}
    {fault : EvalError}
    (hPerforms : e.Performs m op v w)
    (hFault : applyBinary op v w = .error fault) :
    e.eval m = .error fault := by
  induction hPerforms with
  | apply hLogical hLeft hRight =>
      rw [eval_binary hLogical, hLeft, hRight]
      exact hFault
  | @operand sign _ _ _ _ _ ih =>
      cases sign with
      | not => rw [eval, ih hFault]; rfl
      | negate => rw [eval, ih hFault]; rfl
  | left _ ih =>
      rw [eval_binary_eq, ih hFault]
      rfl
  | right hLeft hGoesOn _ ih =>
      rw [eval_binary_eq, hLeft]
      change (if _ then _ else _) = _
      rw [if_pos hGoesOn, ih hFault]
      rfl

/- An expression that fails performs an operation that does. -/
theorem exists_performs
    {fault : EvalError}
    (hNumeric : fault.isNumeric = true)
    {e : Expr}
    (hFault : e.eval m = .error fault) :
    ∃ op v w, e.Performs m op v w ∧
      applyBinary op v w = .error fault := by
  induction e with
  | literal v => cases hFault
  | name s line meaning =>
      have hUnknown : fault = .unknownVariable s := by
        unfold eval Memory.read at hFault
        split at hFault
        · cases hFault
        · split at hFault
          · cases hFault
          · cases hFault
            rfl
      cases hUnknown
      cases hNumeric
  | target path line place =>
      cases place with
      | none =>
          cases hFault
          cases hNumeric
      | some a => cases hFault
  | unary sign e ih =>
      have hOperand : e.eval m = .error fault := by
        cases sign with
        | not =>
            rcases except_bind_error.mp hFault with
              hOperand | ⟨v, _, hSign⟩
            · exact hOperand
            · cases hSign
        | negate =>
            rcases except_bind_error.mp hFault with
              hOperand | ⟨v, _, hSign⟩
            · exact hOperand
            · cases v <;> cases hSign <;> cases hNumeric
      rcases ih hOperand with ⟨op, v, w, hPerforms, hApply⟩
      exact ⟨op, v, w, .operand hPerforms, hApply⟩
  | binary op e f ihLeft ihRight =>
      rw [eval_binary_eq] at hFault
      rcases except_bind_error.mp hFault with
        hLeft | ⟨v, hLeft, hThen⟩
      · rcases ihLeft hLeft with ⟨op, v, w, hPerforms, hApply⟩
        exact ⟨op, v, w, .left hPerforms, hApply⟩
      · split at hThen
        · next hGoesOn =>
            rcases except_bind_error.mp hThen with
              hRight | ⟨w, hRight, hSettle⟩
            · rcases ihRight hRight with
                ⟨op, v, w, hPerforms, hApply⟩
              exact ⟨op, v, w,
                .right hLeft hGoesOn hPerforms, hApply⟩
            · rw [settle] at hSettle
              split at hSettle
              · cases hSettle
              · next hLogical =>
                  exact ⟨op, v, w,
                    .apply (Bool.eq_false_iff.mpr hLogical)
                      hLeft hRight, hSettle⟩
        · cases hThen

/-
  An evaluation fails for a reason of arithmetic if and only if
  it performs an operation that does.
-/
theorem eval_error_iff
    {fault : EvalError}
    (hNumeric : fault.isNumeric = true)
    (e : Expr) :
    e.eval m = .error fault ↔
      ∃ op v w, e.Performs m op v w ∧
        applyBinary op v w = .error fault := by
  constructor
  · exact exists_performs hNumeric
  · rintro ⟨op, v, w, hPerforms, hFault⟩
    exact hPerforms.eval_error hFault

end Expr

end BranchingStory

------------------------------------------------------------
-- Operations That Overreach
------------------------------------------------------------

namespace BranchingStory

/-
  The faults of arithmetic that nothing guards against, in
  contrast to a division by zero.
-/
def EvalError.isUnguarded : EvalError → Bool
  | .beyondFloatRange => true
  | .remainderOfInfinity => true
  | _ => false

/- What nothing guards against is a fault of arithmetic. -/
theorem EvalError.isNumeric_of_isUnguarded
    {fault : EvalError}
    (hUnguarded : fault.isUnguarded = true) :
    fault.isNumeric = true := by
  cases fault <;> cases hUnguarded <;> rfl

/- The operations that calculate with numbers. -/
def BinaryOp.isArithmetic
    (op : BinaryOp) : Bool :=
  !op.isLogical && !op.isEquality && !op.isOrdering

/- The operations that divide. -/
def BinaryOp.isDivision : BinaryOp → Bool
  | .divide | .modulo => true
  | _ => false

/- Whether a double is positive or negative infinity. -/
def IsInfinite
    (x : Float) : Prop :=
  finite? x = none ∧ x.isNaN = false

/-
  When an operation on numbers fails without a guard.  It mixes
  an integer beyond the doubles with a double, or it divides
  an infinity with remainder, by a number that is not zero.
-/
inductive BinaryOp.Overreaches :
    BinaryOp → Value → Value → EvalError → Prop where
  | leftBeyond
      {op : BinaryOp}
      {n : Int}
      {x : Float}
      (hArithmetic : op.isArithmetic = true)
      (hBeyond : floatLimit ≤ n.natAbs) :
      Overreaches op (.int n) (.float x) .beyondFloatRange
  | rightBeyond
      {op : BinaryOp}
      {n : Int}
      {x : Float}
      (hArithmetic : op.isArithmetic = true)
      (hBeyond : floatLimit ≤ n.natAbs) :
      Overreaches op (.float x) (.int n) .beyondFloatRange
  | infinite
      {x y : Float}
      {w : Value}
      (hInfinite : IsInfinite x)
      (hNumeric : w.kind.isNumeric = true)
      (hDivisor : toFloat w = .ok y)
      (hSome : (y == 0) = false)
      (hNumber : y.isNaN = false) :
      Overreaches .modulo (.float x) w .remainderOfInfinity

variable {op : BinaryOp}
variable {v w : Value}
variable {fault : EvalError}

/- Only an integer beyond the doubles has no double. -/
theorem toFloat_error_iff :
    toFloat v = .error fault ↔
      fault = .beyondFloatRange ∧
        ∃ n, v = .int n ∧ floatLimit ≤ n.natAbs := by
  cases v with
  | int n =>
      rw [toFloat]
      cases hDouble : doubleOfInt? n with
      | none =>
          have hBeyond := (doubleOfInt?_eq_none_iff n).mp hDouble
          simp [hBeyond, eq_comm]
      | some x =>
          have hWithin : ¬ floatLimit ≤ n.natAbs := by
            rw [← doubleOfInt?_eq_none_iff, hDouble]
            simp
          simp [hWithin]
  | float x => simp [toFloat]
  | bool b => simp [toFloat]
  | string s => simp [toFloat]
  | divert s => simp [toFloat]

/- Arithmetic with a double fails at one of its steps. -/
theorem arithmetic_error_iff
    (hFloats : ¬ ∃ a b, v = .int a ∧ w = .int b) :
    arithmetic op v w = .error fault ↔
      toFloat v = .error fault ∨
        ∃ x, toFloat v = .ok x ∧
          (toFloat w = .error fault ∨
            ∃ y, toFloat w = .ok y ∧
              floatArithmetic op x y = .error fault) := by
  rw [arithmetic_of_float hFloats, except_bind_error]
  refine or_congr_right (exists_congr fun x =>
    and_congr_right fun _ => ?_)
  rw [except_bind_error]
  refine or_congr_right (exists_congr fun y =>
    and_congr_right fun _ => ?_)
  rw [except_bind_error]
  simp [pure, Except.pure]

/- Only an infinity has no remainder. -/
theorem remainder?_eq_none_iff
    {x y : Float} :
    remainder? x y = none ↔
      IsInfinite x ∧ y.isNaN = false := by
  rw [remainder?, IsInfinite]
  cases x.isNaN <;> cases y.isNaN <;>
    cases finite? x <;> cases finite? y <;> simp

/- Arithmetic of doubles leaves only an infinity unguarded. -/
theorem floatArithmetic_error_iff
    {x y : Float}
    (hArithmetic : op.isArithmetic = true)
    (hUnguarded : fault.isUnguarded = true) :
    floatArithmetic op x y = .error fault ↔
      fault = .remainderOfInfinity ∧ op = .modulo ∧
        IsInfinite x ∧ (y == 0) = false ∧
          y.isNaN = false := by
  have hZero : fault ≠ .divisionByZero := by
    rintro rfl
    cases hUnguarded
  cases op with
  | add => simp [floatArithmetic]
  | subtract => simp [floatArithmetic]
  | multiply => simp [floatArithmetic]
  | divide =>
      rw [floatArithmetic]
      split
      · simp [hZero.symm]
      · simp
  | modulo =>
      dsimp only [floatArithmetic]
      constructor
      · intro hFault
        split at hFault
        · cases hFault
          exact absurd rfl hZero
        · next hSome =>
            split at hFault
            · cases hFault
            · next hNone =>
                cases hFault
                rcases remainder?_eq_none_iff.mp hNone with
                  ⟨hInfinite, hNumber⟩
                exact ⟨rfl, rfl, hInfinite,
                  Bool.eq_false_iff.mpr hSome, hNumber⟩
      · rintro ⟨rfl, -, hInfinite, hSome, hNumber⟩
        rw [if_neg (Bool.eq_false_iff.mp hSome),
          remainder?_eq_none_iff.mpr ⟨hInfinite, hNumber⟩]
  | _ => cases hArithmetic

/- A comparison for equality is always guarded. -/
theorem valuesEqual_error
    (hFault : valuesEqual v w = .error fault) :
    fault = .cannotCompare v.kind w.kind := by
  unfold valuesEqual at hFault
  split at hFault
  · cases hFault
  · split at hFault
    · cases hFault
    · cases hFault
      rfl

/- The faults of arithmetic are left to arithmetic. -/
theorem applyBinary_error
    (hLogical : op.isLogical = false)
    (hNumeric : fault.isNumeric = true)
    (hFault : applyBinary op v w = .error fault) :
    op.isArithmetic = true ∧
      (v.kind.isNumeric && w.kind.isNumeric) = true ∧
        arithmetic op v w = .error fault := by
  have hGuarded (guarded : EvalError)
      (hSame : fault = guarded)
      (hNone : guarded.isNumeric = false) : False := by
    rw [hSame, hNone] at hNumeric
    cases hNumeric
  by_cases hEquality : op.isEquality = true
  · have hEqual : valuesEqual v w = .error fault := by
      cases op <;> cases hEquality
      · exact except_map_error.mp hFault
      · exact except_map_error.mp hFault
    exact (hGuarded _ (valuesEqual_error hEqual) rfl).elim
  · by_cases hBoth :
        (v.kind.isNumeric && w.kind.isNumeric) = true
    · rw [applyBinary_of_isNumeric hEquality hBoth] at hFault
      split at hFault
      · cases hFault
      · next hOrdering =>
          refine ⟨?_, hBoth, hFault⟩
          simp [BinaryOp.isArithmetic, hLogical, hEquality,
            hOrdering]
    · exfalso
      unfold applyBinary at hFault
      split at hFault
      · exact hEquality rfl
      · exact hEquality rfl
      · cases hFault
      · split at hFault
        · next x y hLeft hRight =>
            apply hBoth
            rw [← Value.isSome_extended?,
              ← Value.isSome_extended?, hLeft, hRight]
            rfl
        · cases hFault
          exact hGuarded _ rfl rfl

/- Arithmetic of integers fails if it divides by zero. -/
theorem integerArithmetic_error_iff
    {a b : Int}
    (hArithmetic : op.isArithmetic = true) :
    integerArithmetic op a b = .error fault ↔
      fault = .integerDivisionByZero ∧
        op.isDivision = true ∧ b = 0 := by
  by_cases hZero : b = 0 <;>
    cases op <;> cases hArithmetic <;>
    simp [integerArithmetic, BinaryOp.isDivision, hZero,
      eq_comm]

/- The double of an integer is finite. -/
theorem not_isInfinite_doubleOfInt?
    {n : Int}
    {x : Float}
    (hDouble : doubleOfInt? n = some x) :
    ¬ IsInfinite x := by
  rintro ⟨hInfinite, _⟩
  rw [doubleOfInt?] at hDouble
  split at hDouble
  · next hFinite =>
      cases hDouble
      rw [hInfinite] at hFinite
      cases hFinite
  · cases hDouble

/- What arithmetic leaves unguarded overreaches. -/
theorem overreaches_of_arithmetic
    (hArithmetic : op.isArithmetic = true)
    (hUnguarded : fault.isUnguarded = true)
    (hLeft : v.kind.isNumeric = true)
    (hRight : w.kind.isNumeric = true)
    (hFault : arithmetic op v w = .error fault) :
    op.Overreaches v w fault := by
  by_cases hInts : ∃ a b, v = .int a ∧ w = .int b
  · rcases hInts with ⟨a, b, rfl, rfl⟩
    rcases
        (integerArithmetic_error_iff hArithmetic).mp
          (except_map_error.mp hFault) with
      ⟨hZero, _⟩
    rw [hZero] at hUnguarded
    cases hUnguarded
  · rcases (arithmetic_error_iff hInts).mp hFault with
      hLeftFault | ⟨x, hx, hRightFault | ⟨y, hy, hFloats⟩⟩
    · rcases toFloat_error_iff.mp hLeftFault with
        ⟨rfl, n, rfl, hBeyond⟩
      cases w with
      | int b => exact absurd ⟨n, b, rfl, rfl⟩ hInts
      | float x => exact .leftBeyond hArithmetic hBeyond
      | _ => cases hRight
    · rcases toFloat_error_iff.mp hRightFault with
        ⟨rfl, n, rfl, hBeyond⟩
      cases v with
      | int a => exact absurd ⟨a, n, rfl, rfl⟩ hInts
      | float x => exact .rightBeyond hArithmetic hBeyond
      | _ => cases hLeft
    · rcases
          (floatArithmetic_error_iff hArithmetic
            hUnguarded).mp hFloats with
        ⟨rfl, rfl, hInfinite, hSome, hNumber⟩
      cases v with
      | int a =>
          rw [toFloat] at hx
          split at hx
          · next z hDouble =>
              cases hx
              exact absurd hInfinite
                (not_isInfinite_doubleOfInt? hDouble)
          · cases hx
      | float x =>
          cases hx
          exact .infinite hInfinite hRight hy hSome hNumber
      | _ => cases hLeft

/- Arithmetic is left to the arithmetic operations. -/
theorem applyBinary_of_isArithmetic
    (hArithmetic : op.isArithmetic = true)
    (hBoth : (v.kind.isNumeric && w.kind.isNumeric) = true) :
    applyBinary op v w = arithmetic op v w := by
  simp only [BinaryOp.isArithmetic, Bool.and_eq_true,
    Bool.not_eq_true'] at hArithmetic
  rw [applyBinary_of_isNumeric
      (Bool.eq_false_iff.mp hArithmetic.1.2) hBoth,
    if_neg (Bool.eq_false_iff.mp hArithmetic.2)]

/-
  An operation fails without a guard if and only if it is one
  of those that overreach.
-/
theorem applyBinary_error_iff
    (hLogical : op.isLogical = false)
    (hUnguarded : fault.isUnguarded = true) :
    applyBinary op v w = .error fault ↔
      op.Overreaches v w fault := by
  constructor
  · intro hFault
    rcases applyBinary_error hLogical
        (EvalError.isNumeric_of_isUnguarded hUnguarded)
        hFault with
      ⟨hArithmetic, hBoth, hSteps⟩
    rw [Bool.and_eq_true] at hBoth
    exact overreaches_of_arithmetic hArithmetic hUnguarded
      hBoth.1 hBoth.2 hSteps
  · intro hOverreaches
    cases hOverreaches with
    | leftBeyond hArithmetic hBeyond =>
        rw [applyBinary_of_isArithmetic hArithmetic rfl,
          arithmetic_error_iff (by simp)]
        exact Or.inl (toFloat_error_iff.mpr
          ⟨rfl, _, rfl, hBeyond⟩)
    | @rightBeyond _ n x hArithmetic hBeyond =>
        rw [applyBinary_of_isArithmetic hArithmetic rfl,
          arithmetic_error_iff (by simp)]
        exact Or.inr ⟨x, rfl, Or.inl (toFloat_error_iff.mpr
          ⟨rfl, n, rfl, hBeyond⟩)⟩
    | @infinite x y w hInfinite hNumeric hDivisor hSome
        hNumber =>
        have hBoth :
            ((Value.float x).kind.isNumeric &&
              w.kind.isNumeric) = true := by
          rw [hNumeric]
          rfl
        rw [applyBinary_of_isArithmetic rfl hBoth,
          arithmetic_error_iff (by simp)]
        refine Or.inr ⟨x, rfl, Or.inr ⟨y, hDivisor, ?_⟩⟩
        exact (floatArithmetic_error_iff rfl rfl).mpr
          ⟨rfl, rfl, hInfinite, hSome, hNumber⟩

/-
  Whether an expression performs an operation that fails
  without a guard.
-/
def Expr.Overreaches
    (m : Memory)
    (e : Expr)
    (fault : EvalError) : Prop :=
  ∃ op v w, e.Performs m op v w ∧ op.Overreaches v w fault

/- Only what is not logical is performed on two values. -/
theorem Expr.Performs.isLogical
    {m : Memory}
    {e : Expr}
    (hPerforms : e.Performs m op v w) :
    op.isLogical = false := by
  induction hPerforms with
  | apply hLogical => exact hLogical
  | operand _ ih => exact ih
  | left _ ih => exact ih
  | right _ _ _ ih => exact ih

/-
  An expression fails without a guard if and only if it
  performs an operation that overreaches.
-/
theorem Expr.eval_unguarded_iff
    {m : Memory}
    (e : Expr)
    (hUnguarded : fault.isUnguarded = true) :
    e.eval m = .error fault ↔ e.Overreaches m fault := by
  rw [eval_error_iff
    (EvalError.isNumeric_of_isUnguarded hUnguarded)]
  refine exists_congr fun op => exists_congr fun v =>
    exists_congr fun w => and_congr_right fun hPerforms => ?_
  exact applyBinary_error_iff hPerforms.isLogical hUnguarded

end BranchingStory

------------------------------------------------------------
-- Faults Of Numbers
------------------------------------------------------------

namespace BranchingStory

/- All expressions of an outline. -/
def Outline.expressions
    (o : Outline) : List Expr :=
  o.leaves.flatMap fun p => p.2.expressions

/-
  The faults that come from numbers of a story: one of its
  expressions overreaches, or is an integer too long to be
  written.
-/
inductive PlayError.IsNumberFault
    (o : Outline)
    (m : Memory) : PlayError → Prop where
  | overreach
      {e : Expr}
      {fault : EvalError}
      (hExpr : e ∈ o.expressions)
      (hOverreaches : e.Overreaches m fault) :
      IsNumberFault o m (.evaluation fault)
  | long
      {e : Expr}
      {n : Int}
      (hExpr : e ∈ o.expressions)
      (hValue : e.eval m = .ok (.int n))
      (hLong : isShortInt n = false) :
      IsNumberFault o m .longInt

open Play

variable {o : Outline}

/- A value that can not be written is a long integer. -/
theorem Value.eq_int_of_not_isWritable
    {v : Value}
    (hLong : v.isWritable = false) :
    ∃ n, v = .int n ∧ isShortInt n = false := by
  cases v with
  | int n => exact ⟨n, rfl, hLong⟩
  | _ => cases hLong

/- An evaluation that escapes the story overreaches. -/
theorem isNumberFault_of_eval
    {e : Expr}
    {m : Memory}
    {fault : EvalError}
    (hExpr : e ∈ o.expressions)
    (hFault : e.eval m = .error fault)
    (hEscapes :
      (PlayError.evaluation fault).isOfStory = false) :
    (PlayError.evaluation fault).IsNumberFault o m := by
  have hUnguarded : fault.isUnguarded = true := by
    cases fault <;> first | rfl | cases hEscapes
  exact .overreach hExpr
    ((e.eval_unguarded_iff hUnguarded).mp hFault)

/-
  Whatever stops a story that it does not answer for, comes
  from its numbers or from a place that is not there.
-/
theorem laws_of_numbers
    (o : Outline) :
    Laws o (fun _ => True) fun e m =>
      e.isOfStory = false →
        e = .indexOutOfRange ∨ e.IsNumberFault o m where
  evaluates := by
    intro p hLeaf e hExpr m fault _ hFault hEscapes
    exact Or.inr (isNumberFault_of_eval
      (List.mem_flatMap.mpr ⟨p, hLeaf, hExpr⟩) hFault hEscapes)
  writes := by
    intro p hLeaf e hExpr m v _ hValue hLong _
    rcases v.eq_int_of_not_isWritable hLong with ⟨n, rfl, hLong⟩
    exact Or.inr (.long
      (List.mem_flatMap.mpr ⟨p, hLeaf, hExpr⟩) hValue hLong)
  assigns := by
    rintro ⟨id, l⟩ hLeaf name value rfl
    have hExpr : value ∈ o.expressions :=
      List.mem_flatMap.mpr ⟨_, hLeaf, List.mem_cons_self⟩
    exact assign_obeys
      (fun m fault hFault hEscapes =>
        Or.inr (isNumberFault_of_eval hExpr hFault hEscapes))
      (fun _ hEscapes => nomatch hEscapes)
      (fun _ _ _ hEscapes => nomatch hEscapes)
  diverts := fun _ _ _ _ =>
    divertPlace?_obeys (fun _ _ hEscapes => nomatch hEscapes)
      (fun _ hEscapes => nomatch hEscapes)
  visits := fun _ _ _ => trivial
  places := by
    intro e m hPlace _ hEscapes
    cases e with
    | indexOutOfRange => exact Or.inl rfl
    | longInt => cases hPlace
    | _ => first | cases hEscapes | cases hPlace

/-
  A story that fits and is resumed is stopped by a foreseen
  fault, if at all.  One that it does not answer for comes from
  its numbers.
-/
theorem resume_numberFault
    {s s' : State}
    {steps : Nat}
    {e : PlayError}
    (hSound : o.IsSound)
    (hFits : s.Fits o)
    (hRun : (resume o steps).runFrom s = (.error e, s'))
    (hEscapes : e.isOfStory = false) :
    e.IsNumberFault o s'.memory := by
  have hForeseen :=
    ((resume_ends hSound steps hFits).of_error hRun).2
  have hBlamed :=
    (((laws_of_numbers o).resume_obeys
      (fun _ _ hEscapes => nomatch hEscapes) steps s
      trivial).of_error hRun).2
  rcases hBlamed hEscapes with rfl | hNumber
  · cases hForeseen
  · exact hNumber

end BranchingStory
