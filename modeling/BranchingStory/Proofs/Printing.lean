import BranchingStory.Proofs.Decimals
import BranchingStory.Proofs.Insertions

/-
  This file prints expressions, with parentheses around every
  operation, and shows that every expression that can be read
  at all is read back from its print.

  Key definitions include:
    * `escape`
    * `Value.token`
    * `Expr.print`
    * `Expr.IsReadable`
    * `Phrase.Prints`

  Key theorems include:
    * `unescape_escape`
    * `Expr.IsReadable.prints`
    * `ofText_print`
    * `isReadable_iff`
-/

------------------------------------------------------------
-- Printing
------------------------------------------------------------

namespace BranchingStory

/- A text with its quotes and backslashes escaped. -/
def escape : List Char → List Char
  | [] => []
  | c :: cs =>
      if c = '"' ∨ c = '\\' then '\\' :: c :: escape cs
      else c :: escape cs

/- The token that a literal is printed as. -/
def Value.token : Value → Token
  | .int n => .number (toString n)
  | .float x => .number (String.ofList (decimalOf x))
  | .bool b => .name (boolText b)
  | .string s => .quoted (String.ofList (escape s.toList))
  | .divert path => .name path

/- An expression with parentheses around each operation. -/
def Expr.print : Expr → List Char
  | .literal v => v.token.chars
  | .name s _ _ => s.toList
  | .target path _ _ => '-' :: '>' :: path.toList
  | .unary op e =>
      '(' :: ((op.symbol.toList ++ ' ' :: e.print) ++ [')'])
  | .binary op left right =>
      '(' :: ((left.print ++
        ' ' :: (op.symbol.toList ++ ' ' :: right.print)) ++
          [')'])

/- Whether a value can be written as a literal. -/
def Value.IsReadable : Value → Prop
  | .int n => 0 ≤ n ∧ isShortInt n = true
  | .float x => x.toBits.toNat ≤ infinityBits
  | .bool _ | .string _ => True
  | .divert _ => False

/-
  Whether an expression can be written on a line.  What its
  names mean is not known yet.
-/
def Expr.IsReadable
    (line : Nat) : Expr → Prop
  | .literal v => v.IsReadable
  | .name s l meaning =>
      (Token.name s).IsWritten ∧ isReference s = true ∧
        l = line ∧ meaning = none
  | .target path l place =>
      (Token.name path).IsWritten ∧ l = line ∧ place = none
  | .unary _ e => e.IsReadable line
  | .binary _ left right =>
      left.IsReadable line ∧ right.IsReadable line

end BranchingStory

------------------------------------------------------------
-- Literals
------------------------------------------------------------

namespace BranchingStory

/- What begins as no truth value does is none. -/
theorem boolOfWord?_eq_none
    {c : Char}
    (cs : List Char)
    (hHead : c.toLower ∉ ['t', 'f']) :
    boolOfWord? (String.ofList (c :: cs)) = none := by
  have hOther {d : Char} {word : String}
      (hWord : word.toList.head? = some d)
      (hLetter : d ∈ ['t', 'f']) :
      lowerWord (String.ofList (c :: cs)) ≠ word := by
    rintro rfl
    rw [lowerWord, String.toList_ofList, String.toList_ofList,
      List.map_cons, List.head?_cons, Option.some.injEq] at hWord
    rw [hWord] at hHead
    exact hHead hLetter
  rw [boolOfWord?,
    if_neg (hOther (d := 't') rfl (by decide)),
    if_neg (hOther (d := 'f') rfl (by decide))]

/- What is escaped is restored. -/
theorem unescape_escape
    (cs : List Char) :
    unescape (escape cs) = cs := by
  induction cs with
  | nil => rfl
  | cons c cs ih =>
      rw [escape]
      split
      · next hEscape =>
          have hBreak : c ≠ '\n' := by
            rintro rfl
            exact absurd hEscape (by decide)
          rw [unescape, if_neg hBreak, ih]
      · next hPlain =>
          rw [unescape, ih]
          rintro c' rest hSame
          exact absurd (Or.inr hSame) hPlain

/- What is escaped can stand between quotes. -/
theorem isQuotable_escape
    (cs : List Char) :
    IsQuotable (escape cs) := by
  induction cs with
  | nil => exact .nil
  | cons c cs ih =>
      rw [escape]
      split
      · next hEscape =>
          refine .escaped ?_ ih
          rintro rfl
          exact absurd hEscape (by decide)
      · next hPlain =>
          rw [not_or] at hPlain
          exact .cons hPlain.1 hPlain.2 ih

/-
  Whether a literal is printed as a number that stands for it
  and that can be read.
-/
structure Value.IsPrinted
    (v : Value)
    (s : String) : Prop where
  token : v.token = .number s
  written : (Token.number s).IsWritten
  short : (Token.number s).isLong = false
  value : numeralValue s = v

/- Integers that are short enough are printed as numbers. -/
theorem isPrinted_int
    {n : Nat}
    (hShort : n < Nat.pow 10 maxDigits) :
    (Value.int n).IsPrinted (toString (n : Int)) := by
  have hChars :
      (toString (n : Int)).toList = Nat.toDigits 10 n := by
    rw [toList_toString, if_neg (by omega), Int.natAbs_natCast]
  have hDigits := isDigit_of_mem_decimal n
  have hAll :
      ∀ c ∈ Nat.toDigits 10 n, isDigit c = true :=
    fun c hMem => isDigit_of_decimal (hDigits c hMem)
  have hPoint : (Nat.toDigits 10 n).contains '.' = false := by
    rw [← Bool.not_eq_true, List.contains_iff_mem]
    intro hMem
    exact absurd (hDigits '.' hMem) (by decide)
  have hLength : ¬ maxDigits < (Nat.toDigits 10 n).length := by
    rw [lt_length_toDigits_iff (by decide), not_not]
    exact hShort
  have hValue :
      ofDigits ((Nat.toDigits 10 n).filterMap digitValue?) =
        n := by
    rw [digitValues_of_isDigit hDigits, ofDigits,
      List.foldl_map, ← Nat.ofDigitChars_eq_foldl,
      Nat.ofDigitChars_ten_toDigits]
  refine ⟨rfl, ?_, ?_, ?_⟩
  · rw [Token.IsWritten, hChars]
    exact .run ⟨Nat.toDigits_ne_nil, hAll⟩
  · rw [Token.isLong, hChars, decide_eq_false hLength,
      Bool.and_false]
  · rw [numeralValue, hChars]
    simp only [hPoint, Bool.false_eq_true, if_false, hValue]

/- Doubles that are not negative are printed as numbers. -/
theorem isPrinted_float
    {x : Float}
    (hNumber : x.toBits.toNat ≤ infinityBits) :
    (Value.float x).IsPrinted
      (String.ofList (decimalOf x)) := by
  rcases digits_of_decimalOf x with
    ⟨whole, fraction, hChars, hWhole, hFraction, hDigits,
      hDigits'⟩
  have hDotted : IsDotted isDigit (decimalOf x) := by
    rw [hChars]
    exact .pair
      ⟨hWhole,
        fun c hMem => isDigit_of_decimal (hDigits c hMem)⟩
      ⟨hFraction,
        fun c hMem => isDigit_of_decimal (hDigits' c hMem)⟩
  have hPoint : (decimalOf x).contains '.' = true := by
    rw [hChars]
    simp
  refine ⟨rfl, ?_, ?_, ?_⟩
  · rw [Token.IsWritten, String.toList_ofList]
    exact hDotted
  · rw [Token.isLong, String.toList_ofList, hPoint]
    rfl
  · rw [numeralValue, String.toList_ofList]
    simp only [hPoint, if_true, readDouble?_decimalOf hNumber,
      Option.getD_some]

/- The value of a number that is not too long is readable. -/
theorem isReadable_numeralValue
    {s : String}
    (hWritten : (Token.number s).IsWritten)
    (hShort : (Token.number s).isLong = false) :
    (numeralValue s).IsReadable := by
  rw [numeralValue]
  split
  · next hPoint =>
      rw [Value.IsReadable]
      cases hRead : readDouble? s.toList with
      | none => decide +kernel
      | some x =>
          rw [readDouble?_of_dotted
            (IsDotted.accept_or_point hWritten)
            (List.contains_iff_mem.mp hPoint)] at hRead
          exact toBits_readDecimal? hRead
  · next hPoint =>
      rw [Bool.not_eq_true] at hPoint
      rw [Token.isLong, hPoint, Bool.not_false, Bool.true_and,
        decide_eq_false_iff_not] at hShort
      refine ⟨Int.natCast_nonneg _, decide_eq_true ?_⟩
      refine ofDigits_lt_of_length_le ?_
        (le_trans (List.length_filterMap_le _ _)
          (Nat.le_of_not_lt hShort))
      intro d hMem
      rcases List.mem_filterMap.mp hMem with ⟨c, _, hValue⟩
      exact digitValue?_lt hValue

end BranchingStory

------------------------------------------------------------
-- Operations
------------------------------------------------------------

namespace BranchingStory

/- The token of an operator with one operand. -/
def UnaryOp.token : UnaryOp → Token
  | .not => .name "not"
  | .negate => .symbol .minus

/- The token of an operator with two operands. -/
def BinaryOp.token : BinaryOp → Token
  | .or => .name "or"
  | .and => .name "and"
  | .equal => .symbol .equal
  | .notEqual => .symbol .notEqual
  | .less => .symbol .less
  | .atMost => .symbol .atMost
  | .greater => .symbol .greater
  | .atLeast => .symbol .atLeast
  | .add => .symbol .plus
  | .subtract => .symbol .minus
  | .multiply => .symbol .star
  | .divide => .symbol .slash
  | .modulo => .symbol .percent

/- A token that is split off as it is written, and harmless. -/
structure Token.IsOperator
    (t : Token)
    (symbol : String) : Prop where
  chars : t.chars = symbol.toList
  written : t.IsWritten
  short : t.isLong = false
  bare : t ≠ .symbol .either

/- A word is a token if its first character is no digit. -/
theorem isWritten_name
    {s : String}
    (hSome : s.toList ≠ [])
    (hWord : s.toList.all isWordChar = true)
    (hFirst : s.toList.head?.all (!isDigit ·) = true) :
    (Token.name s).IsWritten := by
  refine ⟨.run ⟨hSome, List.all_eq_true.mp hWord⟩, ?_⟩
  intro c hHead
  rw [hHead, Option.all_some, Bool.not_eq_true'] at hFirst
  exact hFirst

/- The operators with one operand are tokens. -/
theorem UnaryOp.isOperator
    (op : UnaryOp) :
    op.token.IsOperator op.symbol := by
  cases op with
  | not =>
      exact ⟨rfl, isWritten_name (by decide) (by decide +kernel)
        (by decide), rfl, by decide⟩
  | negate => exact ⟨rfl, trivial, rfl, by decide⟩

/- The operators with two operands are tokens. -/
theorem BinaryOp.isOperator
    (op : BinaryOp) :
    op.token.IsOperator op.symbol := by
  cases op with
  | or =>
      exact ⟨rfl, isWritten_name (by decide) (by decide +kernel)
        (by decide), rfl, by decide⟩
  | and =>
      exact ⟨rfl, isWritten_name (by decide) (by decide +kernel)
        (by decide), rfl, by decide⟩
  | _ => exact ⟨rfl, trivial, rfl, by decide⟩

namespace Phrase

variable {line : Nat}

/- The operation on one primary phrase. -/
theorem exists_unary
    (op : UnaryOp)
    (p : Phrase .primary) :
    ∃ q : Phrase .or, q.tokens = op.token :: p.tokens ∧
      q.expr line = .unary op (p.expr line) := by
  cases op with
  | not =>
      refine ⟨(Phrase.not (.name "not") (.notWord (by decide))
        (p.atLevel .not)).atOr, ?_, ?_⟩
      · rw [tokens_atOr, tokens, tokens_atLevel]
        rfl
      · rw [expr_atOr, expr, expr_atLevel]
  | negate =>
      refine ⟨(Phrase.negate (p.atLevel .negation)).atOr,
        ?_, ?_⟩
      · rw [tokens_atOr, tokens, tokens_atLevel]
        rfl
      · rw [expr_atOr, expr, expr_atLevel]

/- The operation on two primary phrases. -/
theorem exists_binary
    (op : BinaryOp)
    (p q : Phrase .primary) :
    ∃ r : Phrase .or,
      r.tokens = p.tokens ++ op.token :: q.tokens ∧
        r.expr line =
          .binary op (p.expr line) (q.expr line) := by
  have hJoin {l : Level} (hChain : l.isChain = true)
      (hJoins : Joins l op.token op) :
      ∃ r : Phrase .or,
        r.tokens = p.tokens ++ op.token :: q.tokens ∧
          r.expr line =
            .binary op (p.expr line) (q.expr line) := by
    refine ⟨(Phrase.join hChain op.token op hJoins
      (p.atLevel l) (q.atLevel l.next)).atOr, ?_, ?_⟩
    · rw [tokens_atOr, tokens, tokens_atLevel, tokens_atLevel]
    · rw [expr_atOr, expr, expr_atLevel, expr_atLevel]
  have hCompare (hJoins : Joins .comparison op.token op) :
      ∃ r : Phrase .or,
        r.tokens = p.tokens ++ op.token :: q.tokens ∧
          r.expr line =
            .binary op (p.expr line) (q.expr line) := by
    refine ⟨(Phrase.compare op.token op hJoins
      (p.atLevel .sum) (q.atLevel .sum)).atOr, ?_, ?_⟩
    · rw [tokens_atOr, tokens, tokens_atLevel, tokens_atLevel]
    · rw [expr_atOr, expr, expr_atLevel, expr_atLevel]
  cases op with
  | or => exact hJoin (l := .or) rfl (.orWord (by decide))
  | and => exact hJoin (l := .and) rfl (.andWord (by decide))
  | equal => exact hCompare .equal
  | notEqual => exact hCompare .notEqual
  | less => exact hCompare .less
  | atMost => exact hCompare .atMost
  | greater => exact hCompare .greater
  | atLeast => exact hCompare .atLeast
  | add => exact hJoin (l := .sum) rfl .plus
  | subtract => exact hJoin (l := .sum) rfl .minus
  | multiply => exact hJoin (l := .product) rfl .star
  | divide => exact hJoin (l := .product) rfl .slash
  | modulo => exact hJoin (l := .product) rfl .percent

end Phrase

end BranchingStory

------------------------------------------------------------
-- Prints Of Phrases
------------------------------------------------------------

namespace BranchingStory

/-
  Whether a primary phrase derives the print of an expression,
  without a number that is too long and without the sign for
  "or", which is a bar.
-/
structure Phrase.Prints
    (line : Nat)
    (p : Phrase .primary)
    (e : Expr) : Prop where
  expr : p.expr line = e
  lexes : Lexes e.print p.tokens
  harmless : ∀ t ∈ p.tokens,
    t.isLong = false ∧ t ≠ .symbol .either

namespace Phrase

variable {line : Nat}
variable {e f : Expr}

/- A token that is an expression of its own is printed. -/
theorem prints_token
    {t : Token}
    {p : Phrase .primary}
    (hWritten : t.IsWritten)
    (hTokens : p.tokens = [t])
    (hPrint : (p.expr line).print = t.chars)
    (hHarmless : t.isLong = false ∧ t ≠ .symbol .either) :
    p.Prints line (p.expr line) := by
  refine ⟨rfl, ?_, ?_⟩
  · rw [hTokens, hPrint]
    exact .token hWritten
  · rw [hTokens, List.forall_mem_singleton]
    exact hHarmless

/- An operation on what is printed is printed. -/
theorem prints_unary
    (op : UnaryOp)
    {p : Phrase .primary}
    (hP : p.Prints line e) :
    ∃ q : Phrase .primary, q.Prints line (.unary op e) := by
  have hOp := op.isOperator
  rcases exists_unary op p with ⟨r, hTokens, hExpr⟩
  refine ⟨.parens r, ?_, ?_, ?_⟩
  · rw [expr, hExpr, hP.expr]
  · rw [tokens, hTokens, Expr.print, ← hOp.chars]
    exact ((Lexes.token hOp.written).spaced hP.lexes).parens
  · rw [tokens, hTokens, List.forall_mem_cons, List.cons_append,
      List.forall_mem_cons, List.forall_mem_append,
      List.forall_mem_singleton]
    exact ⟨by decide, ⟨hOp.short, hOp.bare⟩, hP.harmless,
      by decide⟩

/- An operation on two prints is printed. -/
theorem prints_binary
    (op : BinaryOp)
    {p q : Phrase .primary}
    (hP : p.Prints line e)
    (hQ : q.Prints line f) :
    ∃ r : Phrase .primary, r.Prints line (.binary op e f) := by
  have hOp := op.isOperator
  rcases exists_binary op p q with ⟨r, hTokens, hExpr⟩
  refine ⟨.parens r, ?_, ?_, ?_⟩
  · rw [expr, hExpr, hP.expr, hQ.expr]
  · rw [tokens, hTokens, Expr.print, ← hOp.chars]
    exact (hP.lexes.spaced
      ((Lexes.token hOp.written).spaced hQ.lexes)).parens
  · rw [tokens, hTokens, List.forall_mem_cons,
      List.forall_mem_append, List.forall_mem_append,
      List.forall_mem_cons, List.forall_mem_singleton]
    exact ⟨by decide, ⟨hP.harmless, ⟨hOp.short, hOp.bare⟩,
      hQ.harmless⟩, by decide⟩

/- A number that stands for a literal is printed. -/
theorem prints_number
    {v : Value}
    {s : String}
    (hPrinted : v.IsPrinted s) :
    (Phrase.number s).Prints line (.literal v) := by
  have hExpr : (Phrase.number s).expr line = .literal v := by
    rw [expr, hPrinted.value]
  rw [← hExpr]
  refine prints_token hPrinted.written rfl ?_
    ⟨hPrinted.short, by simp⟩
  rw [hExpr, Expr.print, hPrinted.token]

/- Every literal is printed as one token. -/
theorem prints_literal
    {v : Value}
    (hReadable : v.IsReadable) :
    ∃ p : Phrase .primary, p.Prints line (.literal v) := by
  cases v with
  | int n =>
      rcases hReadable with ⟨hSign, hShort⟩
      rcases Int.eq_ofNat_of_zero_le hSign with ⟨m, rfl⟩
      exact ⟨_, prints_number
        (isPrinted_int (of_decide_eq_true hShort))⟩
  | float x =>
      exact ⟨_, prints_number (isPrinted_float hReadable)⟩
  | bool b =>
      have hWord (w : String) (hTruth : isTruth w = true)
          (hWritten : (Token.name w).IsWritten)
          (hText : w = Value.boolText (lowerWord w = "true")) :
          (Phrase.truth w hTruth).Prints line
            (.literal (.bool (lowerWord w = "true"))) := by
        refine prints_token hWritten rfl ?_ ⟨rfl, by simp⟩
        rw [expr, Expr.print, Value.token, ← hText]
      cases b with
      | true =>
          exact ⟨_, hWord "true" (by decide)
            (isWritten_name (by decide) (by decide +kernel)
              (by decide)) (by decide)⟩
      | false =>
          exact ⟨_, hWord "false" (by decide)
            (isWritten_name (by decide) (by decide +kernel)
              (by decide)) (by decide)⟩
  | string s =>
      have hExpr :
          (Phrase.quoted
            (String.ofList (escape s.toList))).expr line =
              .literal (.string s) := by
        rw [expr, String.toList_ofList, unescape_escape,
          String.ofList_toList]
      rw [← hExpr]
      refine ⟨_, prints_token
        (t := .quoted (String.ofList (escape s.toList)))
        ?_ rfl ?_ ⟨rfl, by simp⟩⟩
      · rw [Token.IsWritten, String.toList_ofList]
        exact isQuotable_escape s.toList
      · rw [hExpr, Expr.print, Value.token]
  | divert path => exact hReadable.elim

end Phrase

/-
  Every expression that can be written is printed, by induction
  on the expression: a print has parentheses around the prints
  of the operands.
-/
theorem Expr.IsReadable.prints
    {line : Nat}
    {e : Expr}
    (hReadable : e.IsReadable line) :
    ∃ p : Phrase .primary, p.Prints line e := by
  induction e with
  | literal v => exact Phrase.prints_literal hReadable
  | name s l meaning =>
      rcases hReadable with ⟨hWritten, hName, rfl, rfl⟩
      exact ⟨.name s hName, Phrase.prints_token hWritten rfl rfl
        ⟨rfl, by simp⟩⟩
  | target path l place =>
      rcases hReadable with ⟨hWritten, rfl, rfl⟩
      refine ⟨.target path, rfl,
        (Lexes.token hWritten).arrow, ?_⟩
      rw [Phrase.tokens, List.forall_mem_cons,
        List.forall_mem_singleton]
      exact ⟨by decide, rfl, by simp⟩
  | unary op e ih =>
      rcases ih hReadable with ⟨p, hP⟩
      exact Phrase.prints_unary op hP
  | binary op left right ihLeft ihRight =>
      rcases ihLeft hReadable.1 with ⟨p, hP⟩
      rcases ihRight hReadable.2 with ⟨q, hQ⟩
      exact Phrase.prints_binary op hP hQ

end BranchingStory

------------------------------------------------------------
-- Reading Prints
------------------------------------------------------------

namespace BranchingStory

variable {line : Nat}
variable {e : Expr}

/- What a phrase without long numbers stands for is readable. -/
theorem Phrase.isReadable
    {l : Level}
    (p : Phrase l)
    (hWritten : ∀ t ∈ p.tokens, t.IsWritten)
    (hShort : ∀ t ∈ p.tokens, t.isLong = false) :
    (p.expr line).IsReadable line := by
  induction p with
  | lone _ p ih => exact ih hWritten hShort
  | join _ t op _ left right ihLeft ihRight =>
      rw [tokens, List.forall_mem_append,
        List.forall_mem_cons] at hWritten hShort
      exact ⟨ihLeft hWritten.1 hShort.1,
        ihRight hWritten.2.2 hShort.2.2⟩
  | compare t op _ left right ihLeft ihRight =>
      rw [tokens, List.forall_mem_append,
        List.forall_mem_cons] at hWritten hShort
      exact ⟨ihLeft hWritten.1 hShort.1,
        ihRight hWritten.2.2 hShort.2.2⟩
  | not t _ p ih =>
      rw [tokens, List.forall_mem_cons] at hWritten hShort
      exact ih hWritten.2 hShort.2
  | negate p ih =>
      rw [tokens, List.forall_mem_cons] at hWritten hShort
      exact ih hWritten.2 hShort.2
  | number s =>
      rw [tokens, List.forall_mem_singleton] at hWritten hShort
      exact isReadable_numeralValue hWritten hShort
  | quoted s => trivial
  | truth s hTruth => trivial
  | target s =>
      rw [tokens, List.forall_mem_cons,
        List.forall_mem_singleton] at hWritten
      exact ⟨hWritten.2, rfl, rfl⟩
  | name s hName =>
      rw [tokens, List.forall_mem_singleton] at hWritten
      exact ⟨hWritten, hName, rfl, rfl⟩
  | parens p ih =>
      rw [tokens, List.forall_mem_cons, List.forall_mem_append]
        at hWritten hShort
      exact ih hWritten.2.1 hShort.2.1

/- Where no sign for "or" is, none is outside parentheses. -/
theorem hasBareEither_eq_false
    {ts : List Token}
    (hNone : ∀ t ∈ ts, t ≠ .symbol .either)
    (parens : Int) :
    hasBareEither parens ts = false := by
  induction ts generalizing parens with
  | nil => rfl
  | cons t ts ih =>
      rw [List.forall_mem_cons] at hNone
      rw [hasBareEither, ih hNone.2, decide_eq_false hNone.1,
        Bool.and_false, Bool.or_false]

/- The print of an expression is a phrase without bare bars. -/
theorem phrase_of_print
    (hReadable : e.IsReadable line) :
    ∃ p : Phrase .or, tokens e.print = .ok p.tokens ∧
      p.expr line = e ∧ (∀ t ∈ p.tokens, t.isLong = false) ∧
        hasBareEither 0 p.tokens = false := by
  rcases hReadable.prints with ⟨p, hP⟩
  refine ⟨p.atLevel .or, ?_, ?_, ?_, ?_⟩
  · rw [Phrase.tokens_atLevel]
    exact hP.lexes.tokens_eq
  · rw [Phrase.expr_atLevel, hP.expr]
  · rw [Phrase.tokens_atLevel]
    exact fun t hMem => (hP.harmless t hMem).1
  · rw [Phrase.tokens_atLevel]
    exact hasBareEither_eq_false
      (fun t hMem => (hP.harmless t hMem).2) 0

/- A readable expression is read back from its print. -/
theorem ofText_print
    (hReadable : e.IsReadable line) :
    Expr.ofText line e.print = .ok e := by
  rcases phrase_of_print hReadable with
    ⟨p, hTokens, hExpr, hShort, _⟩
  exact ((ofText_iff_derives line hTokens).1 e).mpr
    ⟨⟨p, rfl, hExpr⟩, hShort⟩

/- The expressions with a print are all that are ever read. -/
theorem isReadable_iff :
    e.IsReadable line ↔ ∃ cs, Expr.ofText line cs = .ok e := by
  refine ⟨fun hReadable => ⟨_, ofText_print hReadable⟩, ?_⟩
  rintro ⟨cs, hRead⟩
  rcases except_bind_ok.mp hRead with ⟨ts, hTokens, hOf⟩
  have hWritten := (spelled_of_tokens hTokens).isWritten
  rcases phrase_of_ofTokens hWritten hOf with
    ⟨p, rfl, rfl, hShort⟩
  exact p.isReadable hWritten hShort

end BranchingStory
