import BranchingStory.Story.Check
import BranchingStory.Expr.Eval

/-
  This file says when an expression has a kind and what that
  is worth: its value has the same kind, and the only faults
  of its evaluation are those of arithmetic.

  Key definitions include:
    * `HasKind`
    * `Value.Fits`
    * `Memory.Fits`
    * `EvalError.isNumeric`

  Key theorems include:
    * `applyBinary_fits`
    * `HasKind.eval`
-/

------------------------------------------------------------
-- Kinds Of Expressions
------------------------------------------------------------

namespace BranchingStory

/-
  Whether an expression whose names have their meaning is of a
  kind.  A literal is never a divert.
-/
inductive HasKind
    (o : Outline) : Expr → Kind → Prop where
  | literal
      (v : Value)
      (hKind : v.kind ≠ .divert) :
      HasKind o (.literal v) v.kind
  | reference
      (name : String)
      (line : Nat)
      (d : Declaration)
      (hLookup : o.vars.lookup name = some d) :
      HasKind o (.name name line (some .variable))
        d.initial.kind
  | visits
      (name : String)
      (line : Nat)
      (a : Address)
      (hPlace : o.hasAddress a = true) :
      HasKind o (.name name line (some (.visits a))) .int
  | target
      (path : String)
      (line : Nat)
      (a : Address)
      (hPlace : o.hasAddress a = true) :
      HasKind o (.target path line (some a)) .divert
  | not
      {e : Expr}
      {k : Kind}
      (hOperand : HasKind o e k)
      (hTestable : k.isTestable = true) :
      HasKind o (.unary .not e) .bool
  | negate
      {e : Expr}
      {k : Kind}
      (hOperand : HasKind o e k)
      (hNumeric : k.isNumeric = true) :
      HasKind o (.unary .negate e) k
  | binary
      {op : BinaryOp}
      {e f : Expr}
      {l r k : Kind}
      (hLeft : HasKind o e l)
      (hRight : HasKind o f r)
      (hResult : op.resultKind? l r = some k) :
      HasKind o (.binary op e f) k

end BranchingStory

------------------------------------------------------------
-- Values Of A Kind
------------------------------------------------------------

namespace BranchingStory

/-
  Whether a value is of a kind.  If it is a divert, its path
  is one of the given paths.
-/
structure Value.Fits
    (P : String → Prop)
    (k : Kind)
    (v : Value) : Prop where
  kind : v.kind = k
  path : ∀ s, v = .divert s → P s

/-
  Whether every declared variable has a value of its kind.  If
  it holds a divert, the path is one of the given paths.
-/
def Memory.Fits
    (o : Outline)
    (P : String → Prop)
    (m : Memory) : Prop :=
  ∀ name d, o.vars.lookup name = some d →
    ∃ v, m.vars.lookup name = some v ∧
      v.Fits P d.initial.kind

/-
  The faults of arithmetic: a division by zero, an integer
  beyond the range of floats, the remainder of an infinity.
-/
def EvalError.isNumeric : EvalError → Bool
  | .integerDivisionByZero => true
  | .divisionByZero => true
  | .beyondFloatRange => true
  | .remainderOfInfinity => true
  | _ => false

/-
  Whether an evaluation ends with a value of a kind, or with a
  fault of arithmetic.
-/
def EvaluatesTo
    (P : String → Prop)
    (k : Kind) : Except EvalError Value → Prop
  | .ok v => v.Fits P k
  | .error fault => fault.isNumeric = true

namespace Value

variable {P : String → Prop}

/- A value that is no divert is of its own kind. -/
theorem fits_self
    {v : Value}
    (hKind : v.kind ≠ .divert) :
    v.Fits P v.kind := by
  refine ⟨rfl, ?_⟩
  intro s hDivert
  subst hDivert
  exact absurd rfl hKind

theorem fits_int
    (n : Int) :
    (Value.int n).Fits P .int :=
  fits_self (v := .int n) (by simp [kind])

theorem fits_float
    (x : Float) :
    (Value.float x).Fits P .float :=
  fits_self (v := .float x) (by simp [kind])

theorem fits_bool
    (b : Bool) :
    (Value.bool b).Fits P .bool :=
  fits_self (v := .bool b) (by simp [kind])

theorem fits_string
    (s : String) :
    (Value.string s).Fits P .string :=
  fits_self (v := .string s) (by simp [kind])

/- A number has a place among all numbers. -/
theorem isSome_extended?
    (v : Value) :
    v.extended?.isSome = v.kind.isNumeric := by
  cases v <;> rfl

end Value

end BranchingStory

------------------------------------------------------------
-- Operations
------------------------------------------------------------

namespace BranchingStory

variable {P : String → Prop}

/- The sign of a number can be changed. -/
theorem negate_fits
    {k : Kind}
    {v : Value}
    (hFits : v.Fits P k)
    (hNumeric : k.isNumeric = true) :
    EvaluatesTo P k (negate v) := by
  have hKind := hFits.kind
  subst hKind
  cases v with
  | int n => exact Value.fits_int (-n)
  | float x => exact Value.fits_float (-x)
  | bool b => cases hNumeric
  | string s => cases hNumeric
  | divert s => cases hNumeric

/-
  Values can be tested for equality if both are numbers or
  both are of one kind.
-/
theorem valuesEqual_ok
    {v w : Value}
    (hKinds :
      (v.kind.isNumeric && w.kind.isNumeric) = true ∨
        v.kind = w.kind) :
    ∃ b, valuesEqual v w = .ok b := by
  unfold valuesEqual
  split
  · exact ⟨_, rfl⟩
  · next hNone =>
      rcases hKinds with hNumeric | hSame
      · rw [Bool.and_eq_true, ← Value.isSome_extended?,
          ← Value.isSome_extended?] at hNumeric
        rcases Option.isSome_iff_exists.mp hNumeric.1 with
          ⟨x, hx⟩
        rcases Option.isSome_iff_exists.mp hNumeric.2 with
          ⟨y, hy⟩
        exact absurd hy (hNone x y hx)
      · rw [if_pos hSame]
        exact ⟨_, rfl⟩

/- Arithmetic of integers fails only at a division by zero. -/
theorem integerArithmetic_fits
    (op : BinaryOp)
    (a b : Int) :
    EvaluatesTo P .int
      ((integerArithmetic op a b).map .int) := by
  unfold integerArithmetic
  split
  · exact Value.fits_int _
  · exact Value.fits_int _
  · exact Value.fits_int _
  · split
    · rfl
    · exact Value.fits_int _
  · split
    · rfl
    · exact Value.fits_int _

/- Arithmetic of floats yields floats. -/
theorem floatArithmetic_fits
    (op : BinaryOp)
    (x y : Float) :
    EvaluatesTo P .float
      ((floatArithmetic op x y).map .float) := by
  unfold floatArithmetic
  split
  · exact Value.fits_float _
  · exact Value.fits_float _
  · exact Value.fits_float _
  · split
    · rfl
    · exact Value.fits_float _
  · split
    · rfl
    · split
      · exact Value.fits_float _
      · rfl

/- A number has a float unless it is beyond their range. -/
theorem toFloat_error
    {v : Value}
    {fault : EvalError}
    (hError : toFloat v = .error fault) :
    fault.isNumeric = true := by
  cases v with
  | int n =>
      rw [toFloat] at hError
      split at hError
      · cases hError
      · cases hError
        rfl
  | float x => cases hError
  | bool b => cases hError
  | string s => cases hError
  | divert s => cases hError

/- The kind of a result of arithmetic. -/
def arithmeticKind
    (l r : Kind) : Kind :=
  if l = .float ∨ r = .float then .float else .int

/- Arithmetic goes by floats unless both are integers. -/
theorem arithmetic_of_float
    {op : BinaryOp}
    {v w : Value}
    (hFloats : ¬ ∃ a b, v = .int a ∧ w = .int b) :
    arithmetic op v w = (do
      let x ← toFloat v
      let y ← toFloat w
      let z ← floatArithmetic op x y
      return .float z) := by
  cases v <;> cases w <;> first
    | rfl
    | exact absurd ⟨_, _, rfl, rfl⟩ hFloats

/- Arithmetic of two numbers yields a number. -/
theorem arithmetic_fits
    {op : BinaryOp}
    {v w : Value}
    (hLeft : v.kind.isNumeric = true)
    (hRight : w.kind.isNumeric = true) :
    EvaluatesTo P (arithmeticKind v.kind w.kind)
      (arithmetic op v w) := by
  by_cases hInts : ∃ a b, v = .int a ∧ w = .int b
  · rcases hInts with ⟨a, b, rfl, rfl⟩
    exact integerArithmetic_fits op a b
  · have hFloat :
        arithmeticKind v.kind w.kind = .float := by
      cases v <;> cases w <;>
        simp_all [Value.kind, Kind.isNumeric,
          arithmeticKind]
    rw [hFloat, arithmetic_of_float hInts]
    cases hx : toFloat v with
    | error fault => exact toFloat_error hx
    | ok x =>
        cases hy : toFloat w with
        | error fault => exact toFloat_error hy
        | ok y =>
            have hResult :=
              floatArithmetic_fits (P := P) op x y
            change EvaluatesTo P .float
              (floatArithmetic op x y >>= fun z =>
                pure (.float z))
            cases hz : floatArithmetic op x y with
            | error fault =>
                rw [hz] at hResult
                exact hResult
            | ok z => exact Value.fits_float z

/- Numbers are compared by size or taken to arithmetic. -/
theorem applyBinary_of_isNumeric
    {op : BinaryOp}
    {v w : Value}
    (hEquality : ¬ op.isEquality = true)
    (hBoth : (v.kind.isNumeric && w.kind.isNumeric) = true) :
    applyBinary op v w =
      if op.isOrdering then
        .ok (.bool (ordered op
          (((v.extended?).bind fun x =>
            (w.extended?).bind fun y => x.compare? y))))
      else arithmetic op v w := by
  cases v <;> cases w <;> cases hBoth <;>
    cases op <;> first
      | rfl
      | exact absurd rfl hEquality

/-
  An operation that is neither "and" nor "or" fits its operands
  if their kinds have a kind of result.
-/
theorem applyBinary_fits
    {op : BinaryOp}
    {v w : Value}
    {k : Kind}
    (hLogical : op.isLogical = false)
    (hResult : op.resultKind? v.kind w.kind = some k) :
    EvaluatesTo P k (applyBinary op v w) := by
  unfold BinaryOp.resultKind? at hResult
  simp only [hLogical, Bool.false_eq_true,
    if_false] at hResult
  split at hResult
  · -- The operation tests for equality.
    next hEquality =>
      split at hResult
      · next hKinds =>
          cases hResult
          rw [Bool.or_eq_true, decide_eq_true_eq] at hKinds
          rcases valuesEqual_ok hKinds with ⟨b, hEqual⟩
          cases op <;> cases hEquality
          · rw [applyBinary, hEqual]
            exact Value.fits_bool b
          · rw [applyBinary, hEqual]
            exact Value.fits_bool !b
      · cases hResult
  · next hEquality =>
      have hNumbers :=
        applyBinary_of_isNumeric (v := v) (w := w) hEquality
      split at hResult
      · -- The operation compares by size.
        next hOrdering =>
          split at hResult
          · next hNumeric =>
              cases hResult
              rw [hNumbers hNumeric, if_pos hOrdering]
              exact Value.fits_bool _
          · cases hResult
      · next hOrdering =>
          split at hResult
          · -- Texts are joined.
            next hTexts =>
              rcases hTexts with ⟨rfl, hLeft, hRight⟩
              cases hResult
              cases v <;> cases hLeft
              cases w <;> cases hRight
              exact Value.fits_string _
          · split at hResult
            · next hNumeric =>
                have hKind :
                    k = arithmeticKind v.kind w.kind := by
                  unfold arithmeticKind
                  split at hResult
                  · next hFloat =>
                      cases hResult
                      rw [if_pos hFloat]
                  · next hInts =>
                      cases hResult
                      rw [if_neg hInts]
                rw [hNumbers hNumeric, if_neg hOrdering,
                  hKind]
                rw [Bool.and_eq_true] at hNumeric
                exact arithmetic_fits hNumeric.1 hNumeric.2
            · cases hResult

end BranchingStory

------------------------------------------------------------
-- Evaluation
------------------------------------------------------------

namespace BranchingStory

variable {o : Outline}
variable {P : String → Prop}

/- The logical operations yield truth values. -/
theorem BinaryOp.resultKind?_of_isLogical
    {op : BinaryOp}
    {l r k : Kind}
    (hLogical : op.isLogical = true)
    (hResult : op.resultKind? l r = some k) :
    k = .bool := by
  unfold resultKind? at hResult
  simp only [hLogical, if_true] at hResult
  split at hResult
  · cases hResult
    rfl
  · cases hResult

/- An operation on the value of a kind goes on with it. -/
theorem EvaluatesTo.bind
    {l k : Kind}
    {r : Except EvalError Value}
    {f : Value → Except EvalError Value}
    (hFirst : EvaluatesTo P l r)
    (hThen : ∀ v, v.Fits P l → EvaluatesTo P k (f v)) :
    EvaluatesTo P k (r >>= f) := by
  cases r with
  | error fault => exact hFirst
  | ok v => exact hThen v hFirst

/- Only "and" and "or" may leave their right side alone. -/
theorem Expr.eval_binary
    {op : BinaryOp}
    (hLogical : op.isLogical = false)
    (m : Memory)
    (e f : Expr) :
    (Expr.binary op e f).eval m = (do
      let v ← e.eval m
      let w ← f.eval m
      applyBinary op v w) := by
  cases op <;> first
    | rfl
    | cases hLogical

/-
  The value of an expression of a kind is of that kind, and no
  fault but one of arithmetic can stop its evaluation.
-/
theorem HasKind.eval
    {e : Expr}
    {k : Kind}
    {m : Memory}
    (hKind : HasKind o e k)
    (hPaths :
      ∀ a, o.hasAddress a = true → P a.path)
    (hFits : m.Fits o P) :
    EvaluatesTo P k (e.eval m) := by
  induction hKind with
  | literal v hKind => exact Value.fits_self hKind
  | reference name line d hLookup =>
      rcases hFits name d hLookup with ⟨v, hValue, hValueFits⟩
      simp only [Expr.eval, Memory.read, hValue]
      exact hValueFits
  | visits name line a hPlace => exact Value.fits_int _
  | target path line a hPlace =>
      refine ⟨rfl, ?_⟩
      intro s hDivert
      cases hDivert
      exact hPaths a hPlace
  | not hOperand hTestable ih =>
      exact ih.bind fun v _ => Value.fits_bool _
  | negate hOperand hNumeric ih =>
      exact ih.bind fun v hFits => negate_fits hFits hNumeric
  | @binary op e f l r k hLeft hRight hResult ihLeft ihRight =>
      cases hLogical : op.isLogical with
      | false =>
          rw [Expr.eval_binary hLogical]
          refine ihLeft.bind fun v hValue => ?_
          refine ihRight.bind fun w hValue' => ?_
          apply applyBinary_fits hLogical
          rw [hValue.kind, hValue'.kind]
          exact hResult
      | true =>
          have hBool :=
            BinaryOp.resultKind?_of_isLogical hLogical hResult
          subst hBool
          have hRightTruth :
              EvaluatesTo P .bool
                (f.eval m >>= fun w =>
                  pure (.bool w.truthy)) :=
            ihRight.bind fun w _ => Value.fits_bool _
          -- The left side may settle the outcome.
          cases op <;> cases hLogical
          · refine ihLeft.bind fun v _ => ?_
            split
            · exact Value.fits_bool _
            · exact hRightTruth
          · refine ihLeft.bind fun v _ => ?_
            split
            · exact hRightTruth
            · exact Value.fits_bool _

end BranchingStory
