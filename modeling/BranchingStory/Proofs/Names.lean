import BranchingStory.Proofs.Paths
import BranchingStory.Proofs.Printing

/-
  This file shows which names an expression can refer to.  A
  name may begin with a digit, but the tokens of an expression
  are looked for with numbers first.  So a name is read as a
  reference to what it names, and after an arrow as a target,
  if and only if its first character is no digit.  A name that
  begins with a digit and is read after all is a number.

  Key definitions include:
    * `beginsWithDigit`
    * `nameTokens`

  Key theorems include:
    * `tokens_of_digit_name`
    * `Phrase.head_of_pair`
    * `readFragments_name_iff`
    * `readLiteral_arrow_name`
    * `names_are_read_iff`
-/

------------------------------------------------------------
-- Tokens Of Names
------------------------------------------------------------

namespace BranchingStory

/- Whether the first character of a text is a digit. -/
def beginsWithDigit
    (cs : List Char) : Bool :=
  cs.head?.any isDigit

/- The rest of a name as a token, unless nothing is left. -/
def nameTokens : List Char → List Token
  | [] => []
  | c :: cs => [.name (String.ofList (c :: cs))]

variable {n : List Char}

/- A name that does not begin with a digit is a token. -/
theorem isWritten_of_isName
    (hName : isName n = true)
    (hFirst : beginsWithDigit n = false) :
    (Token.name (String.ofList n)).IsWritten := by
  rw [Token.IsWritten, String.toList_ofList]
  refine ⟨.run (isRun_of_isName hName), ?_⟩
  intro c hHead
  rwa [beginsWithDigit, hHead, Option.any_some] at hFirst

/- Without a point there is only one run to take. -/
theorem takeDotted_of_notMem
    {cs : List Char}
    (accept : Char → Bool)
    (hPoint : '.' ∉ cs) :
    takeDotted accept cs =
      (cs.takeWhile accept, cs.dropWhile accept) := by
  unfold takeDotted
  split
  · next c rest hRest =>
      refine absurd ?_ hPoint
      apply (List.dropWhile_sublist accept).subset
      rw [hRest]
      exact List.mem_cons_self
  · rfl

/-
  A name that begins with a digit is no token of its own: all
  the digits that it begins with are split off as a number.
-/
theorem tokens_of_digit_name
    (hName : isName n = true)
    (hFirst : beginsWithDigit n = true) :
    tokens n =
      .ok (.number (String.ofList (n.takeWhile isDigit)) ::
        nameTokens (n.dropWhile isDigit)) := by
  have hRest :
      tokens (n.dropWhile isDigit) =
        .ok (nameTokens (n.dropWhile isDigit)) := by
    cases hDrop : n.dropWhile isDigit with
    | nil => rfl
    | cons c rest =>
        have hRest : isName (c :: rest) = true := by
          rw [isName, Bool.and_eq_true] at hName ⊢
          refine ⟨rfl, ?_⟩
          rw [← hDrop, List.all_eq_true]
          intro c' hMem
          exact List.all_eq_true.mp hName.2 c'
            ((List.dropWhile_sublist isDigit).subset hMem)
        have hOther : isDigit c = false := by
          have hHead := List.head?_dropWhile_not isDigit n
          rw [hDrop] at hHead
          exact hHead
        have hTokens :=
          (Lexes.token
            (isWritten_of_isName hRest hOther)).tokens_eq
        rwa [Token.chars, Token.text, String.toList_ofList]
          at hTokens
  have hPoint : '.' ∉ n := ne_of_isName hName (by decide)
  rcases exists_cons_of_isName hName with
    ⟨c, rest, rfl, hSolid⟩
  have hDigit : isDigit c = true := hFirst
  have hNext :
      nextToken? (c :: rest) =
        some (.number
          (String.ofList ((c :: rest).takeWhile isDigit)),
          (c :: rest).dropWhile isDigit) := by
    rw [nextToken?, if_pos hDigit, takeDotted_of_notMem _ hPoint]
    · rintro rfl
      exact absurd hDigit (by decide)
    · rintro rest' rfl _
      exact absurd hDigit (by decide)
  rw [tokens_of_nextToken? hSolid hNext, hRest]
  rfl

/- The tokens of a target are an arrow and those of a name. -/
theorem tokens_arrow
    (cs : List Char) :
    tokens ('-' :: '>' :: ' ' :: cs) =
      (tokens cs).map (.arrow :: ·) := by
  rw [tokens_of_nextToken? (by decide) rfl, tokens_space]

end BranchingStory

------------------------------------------------------------
-- Names As Expressions
------------------------------------------------------------

namespace BranchingStory

variable {n : List Char}
variable {line : Nat}
variable {e : Expr}

/-
  A phrase of two tokens begins with an arrow or an operator
  with one operand.  What joins operands makes longer phrases,
  and parentheses do, too.
-/
theorem Phrase.head_of_pair
    {l : Level}
    {t u : Token}
    (p : Phrase l)
    (hTokens : p.tokens = [t, u]) :
    t = .symbol .minus ∨ t = .arrow ∨ Negates t := by
  have hThree {l l' : Level} (left : Phrase l)
      (right : Phrase l') (v : Token) :
      left.tokens ++ v :: right.tokens ≠ [t, u] := by
    rcases left.tokens_head with ⟨t', ts, hLeft, _⟩
    rcases right.tokens_head with ⟨u', us, hRight, _⟩
    rw [hLeft, hRight]
    intro hSame
    have hLength := congrArg List.length hSame
    simp only [List.length_append, List.length_cons,
      List.length_nil] at hLength
    omega
  induction p with
  | lone hWeak p ih => exact ih hTokens
  | join _ v _ _ left right =>
      exact absurd hTokens (hThree left right v)
  | compare v _ _ left right =>
      exact absurd hTokens (hThree left right v)
  | not t' hNegates p =>
      rw [← (List.cons.inj hTokens).1]
      exact Or.inr (Or.inr hNegates)
  | negate p => exact Or.inl (List.cons.inj hTokens).1.symm
  | target s =>
      cases hTokens
      exact Or.inr (Or.inl rfl)
  | parens p =>
      rcases p.tokens_head with ⟨t', ts, hHead, _⟩
      rw [tokens, hHead] at hTokens
      have hLength := congrArg List.length hTokens
      simp only [List.length_append, List.length_cons,
        List.length_nil] at hLength
      omega
  | _ => cases hTokens

/- A name that does not begin with a digit is a reference. -/
theorem ofText_of_isName
    (line : Nat)
    (hName : isName n = true)
    (hFree : isReference (String.ofList n) = true)
    (hFirst : beginsWithDigit n = false) :
    Expr.ofText line n =
      .ok (.name (String.ofList n) line none) := by
  have hReadable :
      (Expr.name (String.ofList n) line none).IsReadable
        line :=
    ⟨isWritten_of_isName hName hFirst, hFree, rfl, rfl⟩
  have hRead := ofText_print hReadable
  rwa [Expr.print, String.toList_ofList] at hRead

/- After an arrow, such a name is a target. -/
theorem ofText_arrow_of_isName
    (line : Nat)
    (hName : isName n = true)
    (hFirst : beginsWithDigit n = false) :
    Expr.ofText line ('-' :: '>' :: ' ' :: n) =
      .ok (.target (String.ofList n) line none) := by
  have hTokens :=
    (Lexes.token (isWritten_of_isName hName hFirst)).tokens_eq
  rw [Token.chars, Token.text, String.toList_ofList] at hTokens
  rw [Expr.ofText, tokens_arrow, hTokens]
  exact ofTokens_of_phrase line
    ((Phrase.target (String.ofList n)).atLevel .or)

/-
  A name that begins with a digit is read only if it is made of
  digits, and then as a number.
-/
theorem ofText_digit_name_iff
    (hName : isName n = true)
    (hFirst : beginsWithDigit n = true) :
    Expr.ofText line n = .ok e ↔
      (∀ c ∈ n, isDigit c = true) ∧ n.length ≤ maxDigits ∧
        e = .literal (numeralValue (String.ofList n)) := by
  have hSome := (isRun_of_isName hName).1
  by_cases hDigits : ∀ c ∈ n, isDigit c = true
  · rw [(ofText_of_digits line hDigits hSome).2]
    split
    · next hLong =>
        refine iff_of_false (by simp) ?_
        rintro ⟨_, hShort, _⟩
        exact absurd hShort (Nat.not_le.mpr hLong)
    · next hShort =>
        rw [Except.ok.injEq]
        constructor
        · rintro rfl
          exact ⟨hDigits, Nat.not_lt.mp hShort, rfl⟩
        · rintro ⟨_, _, rfl⟩
          rfl
  · refine iff_of_false ?_ (fun hAll => hDigits hAll.1)
    intro hRead
    rcases phrase_of_ofText hRead with ⟨ts, hTokens, p, hPhrase⟩
    rw [tokens_of_digit_name hName hFirst] at hTokens
    cases hTokens
    cases hDrop : n.dropWhile isDigit with
    | nil => exact hDigits (List.dropWhile_eq_nil_iff.mp hDrop)
    | cons c rest =>
        -- A number does not begin a phrase of two tokens.
        rw [hDrop, nameTokens] at hPhrase
        rcases p.head_of_pair hPhrase with
          hMinus | hArrow | hNegates
        · cases hMinus
        · cases hArrow
        · cases hNegates

/- After an arrow, such a name is refused as none. -/
theorem ofText_arrow_digit_name
    (line : Nat)
    (hName : isName n = true)
    (hFirst : beginsWithDigit n = true) :
    Expr.ofText line ('-' :: '>' :: ' ' :: n) =
      .error .arrowWithoutName := by
  rw [Expr.ofText, tokens_arrow,
    tokens_of_digit_name hName hFirst]
  rfl

end BranchingStory

------------------------------------------------------------
-- Names In Text And In Declarations
------------------------------------------------------------

namespace BranchingStory

open Reading

variable {n : List Char}
variable {line : Nat}
variable {e : Expr}

/- No character of a name changes how a scanner goes on. -/
theorem not_isSpecial_of_isName
    (hName : isName n = true) :
    ∀ c ∈ n, isSpecial c = false := by
  intro c hMem
  have hDotted : IsDotted isWordChar n :=
    .run (isRun_of_isName hName)
  exact (isPlain_of_isDotted (by decide +kernel) hDotted
    c hMem).1

/- Braces around a name hold an expression and no marks. -/
theorem readBraced_of_isName
    {content : ContentReader}
    (hName : isName n = true) :
    readBraced line content n = (do
      let e ← readExpr? line n
      return e.map .insertion) := by
  have hOther {mark : Char} (hMark : isWordChar mark = false) :
      mark ∉ n := ne_of_isName hName hMark
  have hPlain := not_isSpecial_of_isName hName
  rcases isMarked_of_plain hPlain (hOther (by decide)) 0 [] with
    ⟨ms, hMarks, hChars, hColon, hBar⟩
  rw [List.append_nil, braceLevelFrom, List.append_nil]
    at hMarks
  change braceLevel n = ms at hMarks
  rcases exists_cons_of_isName hName with
    ⟨c, rest, hCons, hSolid⟩
  have hSome : isBlankText n = false := by
    rw [hCons, isBlankText, List.all_cons, hSolid]
    rfl
  have hNoBar : ('|', true) ∉ ms :=
    fun hOpen => hOther (by decide) (hBar.mp hOpen).2
  have hNoMark : (c == '&' || c == '~') = false := by
    rw [Bool.or_eq_false_iff, beq_eq_false_iff_ne,
      beq_eq_false_iff_ne]
    constructor
    · rintro rfl
      exact hOther (by decide) (hCons ▸ List.mem_cons_self)
    · rintro rfl
      exact hOther (by decide) (hCons ▸ List.mem_cons_self)
  have hAlone : isAlternative ms = false := by
    rw [isAlternative, hChars, hCons, List.dropWhile_cons,
      hSolid, Marked.countOpen_eq_zero_iff.mpr hNoBar]
    exact hNoMark
  rw [readBraced, hSome, hMarks, Marked.cut?_eq_none hColon,
    hAlone]
  rfl

/-
  A name in braces is read as an insertion, with nothing else
  and without an issue, if and only if it is read alone, and
  then of the same expression.
-/
theorem readFragments_name_iff
    (hName : isName n = true)
    (d : Draft) :
    (readFragments line ('{' :: (n ++ ['}']))).run d =
        .ok ([.insertion e], d) ↔
      Expr.ofText line n = .ok e := by
  have hShielded :=
    Shielded.plain_all (not_isSpecial_of_isName hName)
  rw [readFragments_braces hShielded,
    readBraced_of_isName hName, readExpr?]
  cases Expr.ofText line n with
  | ok e' =>
      change Except.ok ([Fragment.insertion e'], d) = _ ↔ _
      simp
  | error fault =>
      refine iff_of_false ?_ (by simp)
      cases fault <;> (intro hRun; cases hRun)

/- Every name can be declared as a target. -/
theorem readLiteral_arrow_name
    (hName : isName n = true) :
    readLiteral (String.ofList ('-' :: '>' :: ' ' :: n)) =
      .ok (.divert (String.ofList n)) := by
  have hTrim : trim (' ' :: n) = n := by
    have hStart : trimStart (' ' :: n) = trimStart n := rfl
    rw [trim, hStart]
    exact trim_of_isName hName
  have hAddress : isAddressText n = true := by
    rw [isAddressText,
      breakAt_of_notMem (ne_of_isName hName (by decide))]
    exact hName
  rw [readLiteral, boolOfWord?_eq_none _ (by decide),
    String.toList_ofList]
  change (if isAddressText (trim (' ' :: n)) then
    Except.ok (Value.divert (String.ofList (trim (' ' :: n))))
      else _) = _
  rw [hTrim, hAddress, if_pos rfl]

/-
  How a name is read that is neither a truth value nor an
  operator.  It is a reference if and only if it does not begin
  with a digit, and otherwise a number if it is made of digits
  and short, and nothing else.  After an arrow it is a target if
  and only if it does not begin with a digit.  Braces insert in
  text what the name alone is read as.  As a declared target,
  every such name is read.
-/
theorem names_are_read_iff
    (line : Nat)
    (hName : isName n = true)
    (hFree : isReference (String.ofList n) = true) :
    (∀ e, Expr.ofText line n = .ok e ↔
      (beginsWithDigit n = false ∧
        e = .name (String.ofList n) line none) ∨
      (beginsWithDigit n = true ∧
        (∀ c ∈ n, isDigit c = true) ∧ n.length ≤ maxDigits ∧
          e = .literal (numeralValue (String.ofList n)))) ∧
    (∀ e, Expr.ofText line ('-' :: '>' :: ' ' :: n) = .ok e ↔
      beginsWithDigit n = false ∧
        e = .target (String.ofList n) line none) ∧
    (∀ d e,
      (readFragments line ('{' :: (n ++ ['}']))).run d =
          .ok ([.insertion e], d) ↔
        Expr.ofText line n = .ok e) ∧
    readLiteral (String.ofList ('-' :: '>' :: ' ' :: n)) =
      .ok (.divert (String.ofList n)) := by
  refine ⟨fun e => ?_, fun e => ?_,
    fun d e => readFragments_name_iff hName d,
    readLiteral_arrow_name hName⟩
  · cases hFirst : beginsWithDigit n with
    | false =>
        rw [ofText_of_isName line hName hFree hFirst,
          Except.ok.injEq]
        simpa using eq_comm
    | true =>
        rw [ofText_digit_name_iff hName hFirst]
        simp
  · cases hFirst : beginsWithDigit n with
    | false =>
        rw [ofText_arrow_of_isName line hName hFirst,
          Except.ok.injEq]
        simpa using eq_comm
    | true =>
        rw [ofText_arrow_digit_name line hName hFirst]
        simp

/- A name with a digit within it is read wherever it stands. -/
theorem names_are_read_iff_within :
    isName "key2".toList = true ∧
    isReference (String.ofList "key2".toList) = true ∧
    Expr.ofText 1 "key2".toList =
      .ok (.name "key2" 1 none) ∧
    Expr.ofText 1 "-> key2".toList =
      .ok (.target "key2" 1 none) := by
  have hName : isName "key2".toList = true := by
    decide +kernel
  have hFree :
      isReference (String.ofList "key2".toList) = true := by
    decide +kernel
  have hFirst : beginsWithDigit "key2".toList = false := by
    decide +kernel
  rcases names_are_read_iff 1 hName hFree with
    ⟨hAlone, hTarget, _, _⟩
  exact ⟨hName, hFree, (hAlone _).mpr (Or.inl ⟨hFirst, rfl⟩),
    (hTarget _).mpr ⟨hFirst, rfl⟩⟩

/-
  A knot may have the name "3".  The name alone is a number, and
  an arrow in front of it is refused, while a declared value
  takes it as a target.
-/
theorem digits_hide_names :
    isName "3".toList = true ∧
    isReference "3" = true ∧
    Expr.ofText 1 "3".toList = .ok (.literal (.int 3)) ∧
    Expr.ofText 1 "-> 3".toList = .error .arrowWithoutName ∧
    readLiteral "-> 3" = .ok (.divert "3") := by
  decide +kernel

end BranchingStory
